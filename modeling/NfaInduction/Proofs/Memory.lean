import NfaInduction.Memory
import NfaInduction.Proofs.Automaton.Represents
import NfaInduction.Proofs.Except
import Mathlib.Data.List.Basic

/-! An automaton is allocated exactly if its words can be counted, fit vectors and are granted. -/

namespace NfaInduction

section Run

variable {heap α β : Type} {work : StateT heap (Except Fault) α}
  {next : α → StateT heap (Except Fault) β}

/-- Behind work that is done the next work finds the memory left. -/
theorem run_bind_of_ok {free rest : heap} {value : α} (done : work.run free = .ok (value, rest)) :
    (work >>= next).run free = (next value).run rest := by
  rw [StateT.run_bind, done]
  rfl

/-- Behind work that fails no other work is begun. -/
theorem run_bind_of_error {free : heap} {fault : Fault} (failed : work.run free = .error fault) :
    (work >>= next).run free = .error fault := by
  rw [StateT.run_bind, failed]
  rfl

/-- Work followed by other work is done if both are. -/
theorem exists_of_run_bind {free : heap} {outcome : β × heap}
    (done : (work >>= next).run free = .ok outcome) :
    ∃ value rest, work.run free = .ok (value, rest) ∧ (next value).run rest = .ok outcome := by
  -- The first work leaves memory for the second one.
  rw [StateT.run_bind] at done
  obtain ⟨⟨value, rest⟩, first, second⟩ := bind_eq_ok.1 done
  exact ⟨value, rest, first, second⟩

end Run

namespace Allocator

variable {heap : Type} (allocator : Allocator heap)

/-- Takes the memory of some vectors one after the other. -/
def takeAll (vectors : List Nat) : StateT heap (Except Fault) Unit :=
  vectors.forM allocator.takeWords

@[simp] theorem takeAll_nil : allocator.takeAll [] = pure () := rfl

@[simp] theorem takeAll_cons (words : Nat) (vectors : List Nat) :
    allocator.takeAll (words :: vectors) =
      allocator.takeWords words >>= fun _ => allocator.takeAll vectors := rfl

/-- Two groups of vectors are taken as one. -/
theorem takeAll_append (vectors more : List Nat) :
    allocator.takeAll (vectors ++ more) =
      allocator.takeAll vectors >>= fun _ => allocator.takeAll more := by
  -- The first group is taken vector by vector.
  induction vectors with
  | nil => rw [List.nil_append, takeAll_nil, pure_bind]
  | cons words vectors ih => rw [List.cons_append, takeAll_cons, takeAll_cons, ih, bind_assoc]

variable {allocator}

/-- A vector that is not too long is taken exactly if it is granted. -/
theorem run_takeWords {words : Nat} (short : words * 8 ≤ maxBytes) (free : heap) :
    (allocator.takeWords words).run free =
      match allocator.grant? free words with
      | some rest => .ok ((), rest)
      | none => .error (.outOfMemory (words * 8)) :=
  if_neg (Nat.not_lt.2 short)

/-- A vector that is too long is not even asked for. -/
theorem run_takeWords_of_lt {words : Nat} (long : maxBytes < words * 8) (free : heap) :
    (allocator.takeWords words).run free = .error .capacityOverflow :=
  if_pos long

/-- Vectors that are granted and not too long are taken. -/
theorem run_takeAll_of_some {vectors : List Nat} (short : ∀ words ∈ vectors, words * 8 ≤ maxBytes)
    {free rest : heap} (granted : allocator.grantAll? free vectors = some rest) :
    (allocator.takeAll vectors).run free = .ok ((), rest) := by
  -- Every vector leaves memory from which the next ones are granted.
  induction vectors generalizing free with
  | nil =>
    cases granted
    rfl
  | cons words vectors ih =>
    obtain ⟨short, shorter⟩ := List.forall_mem_cons.1 short
    obtain ⟨left, first, granted⟩ := Option.bind_eq_some_iff.1 granted
    have taken : (allocator.takeWords words).run free = .ok ((), left) := by
      rw [run_takeWords short, first]
    rw [takeAll_cons, run_bind_of_ok taken]
    exact ih shorter granted

/-- Of vectors that are not too long and not all granted, one is asked for in vain. -/
theorem run_takeAll_of_none {vectors : List Nat} (short : ∀ words ∈ vectors, words * 8 ≤ maxBytes)
    {free : heap} (refused : allocator.grantAll? free vectors = none) :
    ∃ words ∈ vectors, (allocator.takeAll vectors).run free = .error (.outOfMemory (words * 8)) := by
  -- It is the first one that is not granted.
  induction vectors generalizing free with
  | nil => cases refused
  | cons words vectors ih =>
    obtain ⟨short, shorter⟩ := List.forall_mem_cons.1 short
    rw [takeAll_cons]
    cases first : allocator.grant? free words with
    | none =>
      have asked : (allocator.takeWords words).run free = .error (.outOfMemory (words * 8)) := by
        rw [run_takeWords short, first]
      exact ⟨words, List.mem_cons_self, run_bind_of_error asked⟩
    | some left =>
      have taken : (allocator.takeWords words).run free = .ok ((), left) := by
        rw [run_takeWords short, first]
      rw [run_bind_of_ok taken]
      have refused : allocator.grantAll? left vectors = none := by
        simpa [grantAll?, first] using refused
      obtain ⟨other, member, run⟩ := ih shorter refused
      exact ⟨other, List.mem_cons_of_mem _ member, run⟩

end Allocator

variable {heap : Type} (allocator : Allocator heap)

namespace TransitionMatrix

/-- Without a number of its words no matrix is allocated. -/
theorem run_allocate_of_none {alphabetSize capacity : Nat}
    (excessive : Capacity.tableWords alphabetSize capacity = none) (free : heap) :
    (allocate allocator alphabetSize capacity).run free =
      .error (.matrixTooLarge capacity alphabetSize) := by
  -- The words are counted before they are asked for.
  rw [allocate, excessive]
  rfl

/-- With more bytes than a vector may take no matrix is allocated. -/
theorem run_allocate_of_lt {alphabetSize capacity words : Nat}
    (counted : Capacity.tableWords alphabetSize capacity = some words)
    (long : Allocator.maxBytes < words * 8) (free : heap) :
    (allocate allocator alphabetSize capacity).run free = .error .capacityOverflow := by
  -- The words are counted, and then they are too many for a vector.
  simp only [allocate, counted]
  exact run_bind_of_error (Allocator.run_takeWords_of_lt long free)

end TransitionMatrix

namespace Automaton

/-- Words of the vectors of the three sets of a new automaton. -/
def setVectors : List Nat := List.replicate 3 (Word.countFor Capacity.block)

/-- Words of all vectors of a new automaton whose matrices have a number of words each. -/
def vectors (words : Nat) : List Nat := setVectors ++ List.replicate 2 words

/-- A new automaton takes the memory of its sets before that of its matrices. -/
theorem allocate_eq (alphabetSize : Nat) :
    allocate allocator alphabetSize =
      allocator.takeAll setVectors >>= fun _ => do
        let predecessors ← TransitionMatrix.allocate allocator alphabetSize Capacity.block
        let successors ← TransitionMatrix.allocate allocator alphabetSize Capacity.block
        let noStates := StateSet.ofCapacity Capacity.block
        return ⟨noStates, noStates, noStates, predecessors, successors⟩ := by
  -- The sets are known before any memory is taken for them.
  simp only [allocate, StateSet.allocate, setVectors, List.replicate, Allocator.takeAll_cons,
    Allocator.takeAll_nil, bind_assoc, pure_bind]

/-- If its words can be counted, a new automaton is what takes the memory of its vectors. -/
theorem allocate_of_some {alphabetSize words : Nat}
    (counted : Capacity.tableWords alphabetSize Capacity.block = some words) :
    allocate allocator alphabetSize =
      allocator.takeAll (vectors words) >>= fun _ => pure (blank alphabetSize) := by
  -- With their words counted the matrices are known as well.
  simp only [allocate_eq, TransitionMatrix.allocate, counted, vectors, Allocator.takeAll_append,
    List.replicate, Allocator.takeAll_cons, Allocator.takeAll_nil, bind_assoc, pure_bind]
  rfl

variable {allocator}

/-- If the sets are not granted, it is one of them that is asked for in vain. -/
theorem run_allocate_of_starved (alphabetSize : Nat) {free : heap}
    (starved : allocator.grantAll? free setVectors = none) :
    ∃ bytes, (allocate allocator alphabetSize).run free = .error (.outOfMemory bytes) := by
  -- The sets are what is asked for first.
  obtain ⟨words, -, asked⟩ := Allocator.run_takeAll_of_none (by decide) starved
  rw [allocate_eq]
  exact ⟨words * 8, run_bind_of_error asked⟩

/-- If the words of a matrix cannot be counted, building it fails behind the sets. -/
theorem run_allocate_of_none {alphabetSize : Nat} {free rest : heap}
    (excessive : Capacity.tableWords alphabetSize Capacity.block = none)
    (granted : allocator.grantAll? free setVectors = some rest) :
    (allocate allocator alphabetSize).run free =
      .error (.matrixTooLarge Capacity.block alphabetSize) := by
  -- The sets are granted, and the first matrix is not counted.
  rw [allocate_eq, run_bind_of_ok (Allocator.run_takeAll_of_some (by decide) granted)]
  exact run_bind_of_error (TransitionMatrix.run_allocate_of_none allocator excessive rest)

/-- If a matrix takes more bytes than a vector may take, building it fails behind the sets. -/
theorem run_allocate_of_lt {alphabetSize words : Nat} {free rest : heap}
    (counted : Capacity.tableWords alphabetSize Capacity.block = some words)
    (long : Allocator.maxBytes < words * 8)
    (granted : allocator.grantAll? free setVectors = some rest) :
    (allocate allocator alphabetSize).run free = .error .capacityOverflow := by
  -- The sets are granted, and the first matrix is too long.
  rw [allocate_eq, run_bind_of_ok (Allocator.run_takeAll_of_some (by decide) granted)]
  exact run_bind_of_error (TransitionMatrix.run_allocate_of_lt allocator counted long rest)

example : (allocate .boundless (2 ^ 50)).run () = .error .capacityOverflow := rfl

/-- What is allocated is the automaton without states. -/
theorem ofAlphabet_of_run_allocate {alphabetSize : Nat} {free rest : heap} {automaton : Automaton}
    (done : (allocate allocator alphabetSize).run free = .ok (automaton, rest)) :
    ofAlphabet alphabetSize = .ok automaton := by
  cases counted : Capacity.tableWords alphabetSize Capacity.block with
  | none =>
    -- Behind the sets there is no matrix.
    rw [allocate_eq] at done
    obtain ⟨-, left, -, done⟩ := exists_of_run_bind done
    rw [run_bind_of_error (TransitionMatrix.run_allocate_of_none allocator counted left)] at done
    cases done
  | some words =>
    rw [allocate_of_some allocator counted] at done
    obtain ⟨-, left, -, done⟩ := exists_of_run_bind done
    cases done
    exact ofAlphabet_of_isSome (Option.isSome_iff_exists.2 ⟨words, counted⟩)

end Automaton

end NfaInduction
