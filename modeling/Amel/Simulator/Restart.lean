import Amel.Simulator.Runner

namespace Amel

/-- The shell that runs the scripts. What stands behind `10#` must have a
digit since version 5.2; before, it could be empty and was 0. -/
structure Bash where
  emptyIsZero : Bool

namespace Bash

/-- The arithmetic of the shell has 64 bits and does not check for overflow. -/
def wrap (n : Int) : Int := n.bmod (2 ^ 64)

/-- `10#digits`; `none` where that is an error. -/
def constant (bash : Bash) (digits : List Char) : Option Int :=
  if digits = [] then if bash.emptyIsZero then some 0 else none
  else if digits.all Char.isDigit then some (wrap (Nat.ofDigitChars 10 digits 0)) else none

/-- `$(( 10#${maxid#higgs-} + 1 ))`. -/
def next (bash : Bash) (maxid : String) : Option Int :=
  let digits := if "higgs-".toList.isPrefixOf maxid.toList then maxid.toList.drop 6 else maxid.toList
  (bash.constant digits).map fun n => wrap (n + 1)

end Bash

/-- `SELECT coalesce(max(entity_id),'higgs-000000000')` over these ids. -/
def maximumId (ids : List String) : String := ids.max?.getD "higgs-000000000"

inductive QueryOutcome
  | answered
  | failed
  deriving DecidableEq, Repr

/-- The scripts that start the simulator anew. -/
inductive Restart
  | toCompose
  | k8sUp
  | k8sDown
  deriving DecidableEq, Repr

namespace Restart

/-- What a script reads: `mode.sh` takes nothing from a query that fails, the
others the id of index 0. -/
def maxid (ids : List String) : Restart → QueryOutcome → String
  | _, .answered => maximumId ids
  | toCompose, .failed => ""
  | k8sUp, .failed | k8sDown, .failed => "higgs-000000000"

/-- The start index that a script hands to the simulator, if it goes on. With
`mode.sh` an error of the arithmetic leaves the variable empty, which Compose
replaces by 0; the others stop there. -/
def handed (bash : Bash) (ids : List String) (restart : Restart) (outcome : QueryOutcome) : Option Int :=
  let start := bash.next (restart.maxid ids outcome)
  match restart with
  | toCompose => some (start.getD 0)
  | k8sUp | k8sDown => start

/-- Every start index handed over is beyond the index of every landed event. -/
def Fresh (bash : Bash) (indices : List Nat) (restart : Restart) (outcome : QueryOutcome) : Prop :=
  ∀ start, restart.handed bash (indices.map higgsEntityId) outcome = some start →
    ∀ index ∈ indices, (index : Int) < start

/-- The start index after a query that failed. -/
def fallback (bash : Bash) : Restart → Nat
  | toCompose => if bash.emptyIsZero then 1 else 0
  | k8sUp | k8sDown => 1

/-- How many digits an index has in an id. -/
def width (index : Nat) : Nat := (Python.zeroPad 9 index).length

/-- No index is greater than the last one once zeros at its end make it as
wide, and the arithmetic of the shell can still add one to the last. -/
def Ordered (indices : List Nat) : Prop :=
  ∀ last ∈ indices, (∀ index ∈ indices, index ≤ last) →
    last + 1 < 2 ^ 63 ∧ ∀ index ∈ indices, index * 10 ^ (width last - width index) ≤ last

variable {bash : Bash} {indices : List Nat} {restart : Restart}

theorem constant_zeroPad (bash : Bash) (n : Nat) : bash.constant (Python.zeroPad 9 n) = some (Bash.wrap n) := by
  obtain ⟨nonempty, digits⟩ := zeroPad_isNumber 9 n
  rw [Bash.constant, if_neg nonempty, if_pos digits, Python.ofDigitChars_zeroPad]

theorem wrap_add_one (n : Int) : Bash.wrap (Bash.wrap n + 1) = Bash.wrap (n + 1) := by
  unfold Bash.wrap
  exact Int.bmod_add_bmod

theorem next_higgsEntityId (bash : Bash) (index : Nat) :
    bash.next (higgsEntityId index) = some (Bash.wrap (index + 1)) := by
  unfold Bash.next
  dsimp only
  rw [strip_higgsEntityId, constant_zeroPad, Option.map_some, wrap_add_one]

theorem maxid_answered (ids : List String) : restart.maxid ids .answered = maximumId ids := by
  cases restart <;> rfl

/-- A number that the arithmetic gives is the one a script hands over. -/
theorem handed_of_next {ids : List String} {outcome : QueryOutcome} {start : Int}
    (next : bash.next (restart.maxid ids outcome) = some start) : restart.handed bash ids outcome = some start := by
  unfold handed
  rw [next]
  cases restart <;> rfl

theorem handed_answered {last : Nat} (greatest : maximumId (indices.map higgsEntityId) = higgsEntityId last) :
    restart.handed bash (indices.map higgsEntityId) .answered = some (Bash.wrap (last + 1)) := by
  apply handed_of_next
  rw [maxid_answered, greatest, next_higgsEntityId]

theorem handed_failed :
    restart.handed bash (indices.map higgsEntityId) .failed = some (restart.fallback bash : Int) := by
  have zero : bash.next "higgs-000000000" = some 1 := by
    have none : "higgs-000000000" = higgsEntityId 0 := by decide +kernel
    rw [none, next_higgsEntityId]
    decide
  cases restart with
  | toCompose =>
    obtain ⟨emptyIsZero⟩ := bash
    cases emptyIsZero with
    | true => exact congrArg some (show (Bash.next ⟨true⟩ "").getD 0 = 1 by decide)
    | false => exact congrArg some (show (Bash.next ⟨false⟩ "").getD 0 = 0 by decide)
  | k8sUp | k8sDown => exact handed_of_next zero

theorem lt_wrap_iff {n : Nat} : (n : Int) < Bash.wrap (n + 1) ↔ n + 1 < 2 ^ 63 := by
  constructor
  · intro more
    have most : Bash.wrap (n + 1) < (2 ^ 64 + 1) / 2 := Int.bmod_lt (by decide)
    omega
  · intro small
    rw [Bash.wrap, Int.bmod_eq_of_le (by omega) (by omega)]
    omega

theorem wrap_le {n : Nat} : Bash.wrap (n + 1) ≤ n + 1 := by
  rcases Nat.lt_or_ge (n + 1) (2 ^ 63) with small | large
  · rw [Bash.wrap, Int.bmod_eq_of_le (by omega) (by omega)]
  · have most : Bash.wrap (n + 1) < (2 ^ 64 + 1) / 2 := Int.bmod_lt (by decide)
    omega

theorem higgsEntityId_le_iff {index last : Nat} (order : index ≤ last) :
    higgsEntityId index ≤ higgsEntityId last ↔ index * 10 ^ (width last - width index) ≤ last := by
  rw [← not_lt, String.lt_iff_toList_lt, higgsEntityId_toList, higgsEntityId_toList, ← Nat.not_lt]
  refine not_congr (Iff.trans ?_ (Python.zeroPad_lt_iff order))
  constructor
  · intro less
    by_contra more
    exact List.append_left_le (List.not_lt.mp more) less
  · intro less
    exact List.append_left_lt less

theorem maximumId_of_mem {index : Nat} (landed : index ∈ indices) :
    ∃ last ∈ indices, maximumId (indices.map higgsEntityId) = higgsEntityId last ∧
      ∀ index ∈ indices, higgsEntityId index ≤ higgsEntityId last := by
  have stored := List.mem_map_of_mem (f := higgsEntityId) landed
  obtain ⟨id, greatest⟩ := Option.isSome_iff_exists.mp (List.isSome_max?_of_mem stored)
  obtain ⟨member, most⟩ := List.max?_eq_some_iff.mp greatest
  obtain ⟨last, isLast, rfl⟩ := List.mem_map.mp member
  have maximum : maximumId (indices.map higgsEntityId) = higgsEntityId last := by
    rw [maximumId, greatest, Option.getD_some]
  exact ⟨last, isLast, maximum, fun index landed => most _ (List.mem_map_of_mem landed)⟩

/-- One index has the largest id and is the largest, or a larger one is not
beyond the start index. -/
theorem fresh_answered : restart.Fresh bash indices .answered ↔ Ordered indices := by
  constructor
  · intro fresh last isLast largest
    obtain ⟨top, isTop, maximum, most⟩ := maximumId_of_mem isLast
    have beyond (index : Nat) (landed : index ∈ indices) : (index : Int) < Bash.wrap (top + 1) :=
      fresh _ (handed_answered maximum) index landed
    have same : top = last := by
      have above := (beyond last isLast).trans_le wrap_le
      have below := largest top isTop
      omega
    subst same
    refine ⟨lt_wrap_iff.mp (beyond top isTop), ?_⟩
    intro index landed
    exact (higgsEntityId_le_iff (largest index landed)).mp (most index landed)
  · intro ordered start handed index landed
    obtain ⟨top, isTop, maximum, most⟩ := maximumId_of_mem landed
    rw [handed_answered maximum, Option.some.injEq] at handed
    subst handed
    obtain ⟨last, greatest⟩ := Option.isSome_iff_exists.mp (List.isSome_max?_of_mem landed)
    obtain ⟨isLast, largest⟩ := List.max?_eq_some_iff.mp greatest
    obtain ⟨small, texts⟩ := ordered last isLast largest
    have same : last = top := by
      have before := (higgsEntityId_le_iff (largest top isTop)).mpr (texts top isTop)
      exact higgsEntityId_injective (le_antisymm (most last isLast) before)
    subst same
    have far := lt_wrap_iff.mpr small
    have near := largest index landed
    omega

theorem fresh_failed :
    restart.Fresh bash indices .failed ↔ ∀ index ∈ indices, index < restart.fallback bash := by
  constructor
  · intro fresh index landed
    exact_mod_cast fresh _ handed_failed index landed
  · intro small start handed index landed
    rw [handed_failed, Option.some.injEq] at handed
    subst handed
    exact_mod_cast small index landed

/-- The start index is fresh after a query that is answered just if the order
of the ids agrees with that of the indices, and after one that fails just if
nothing has landed that the fixed start index would meet again. -/
theorem restart_fresh_iff (bash : Bash) (indices : List Nat) (restart : Restart) (outcome : QueryOutcome) :
    restart.Fresh bash indices outcome ↔
      match outcome with
      | .answered => Ordered indices
      | .failed => ∀ index ∈ indices, index < restart.fallback bash := by
  cases outcome with
  | answered => exact fresh_answered
  | failed => exact fresh_failed

/-- Two indices next to each other, the later one with a digit more; and a
landed event of index 1 when the query fails. -/
theorem landed_index_reused :
    toCompose.handed ⟨false⟩ ([999999999, 1000000000].map higgsEntityId) .answered = some 1000000000 ∧
      ¬toCompose.Fresh ⟨false⟩ [999999999, 1000000000] .answered ∧
      k8sUp.handed ⟨false⟩ ([1].map higgsEntityId) .failed = some 1 ∧ ¬k8sUp.Fresh ⟨false⟩ [1] .failed := by
  have maximum : maximumId ([999999999, 1000000000].map higgsEntityId) = higgsEntityId 999999999 := by
    decide +kernel
  have next : Bash.wrap ((999999999 : Nat) + 1) = 1000000000 := by decide +kernel
  have handed : toCompose.handed ⟨false⟩ ([999999999, 1000000000].map higgsEntityId) .answered = some 1000000000 := by
    rw [handed_answered maximum, next]
  refine ⟨handed, ?_, handed_failed, ?_⟩
  · intro fresh
    exact absurd (fresh _ handed 1000000000 (by decide)) (by decide)
  · intro fresh
    exact absurd (fresh _ handed_failed 1 (by decide)) (by decide)

/-- The indices of nine digits are in order. -/
theorem ordered_of_small (small : ∀ index ∈ indices, index < 10 ^ 9) : Ordered indices := by
  intro last isLast largest
  refine ⟨by have bound := small last isLast; omega, ?_⟩
  intro index landed
  have nine (n : Nat) (below : n < 10 ^ 9) : width n = 9 := Python.length_zeroPad (by decide) below
  rw [nine last (small last isLast), nine index (small index landed), Nat.sub_self, Nat.pow_zero, Nat.mul_one]
  exact largest index landed

/-- A simulator that counts up from a fresh start index reuses no landed id. -/
theorem Fresh.ids_new {outcome : QueryOutcome} {start next index : Nat}
    (fresh : restart.Fresh bash indices outcome)
    (handed : restart.handed bash (indices.map higgsEntityId) outcome = some (start : Int)) (counted : start ≤ next)
    (landed : index ∈ indices) : higgsEntityId next ≠ higgsEntityId index := by
  intro same
  have beyond := fresh _ handed index landed
  rw [higgsEntityId_injective same] at counted
  omega

/-- Without overflow it is the start index of the simulator's runs. -/
theorem handed_eq_higgsStartIndex {landing : Landing} {last : Nat}
    (ids : landing.features.map (·.entityId) = indices.map higgsEntityId)
    (greatest : maximumId (indices.map higgsEntityId) = higgsEntityId last) (small : last + 1 < 2 ^ 63) :
    restart.handed bash (indices.map higgsEntityId) .answered =
      (higgsStartIndex landing).map fun start => (start : Int) := by
  have start : higgsStartIndex landing = some (last + 1) := by
    apply higgsStartIndex_of_max
    rw [ids, ← maximumId]
    exact greatest
  rw [handed_answered greatest, start, Bash.wrap, Int.bmod_eq_of_le (by omega) (by omega)]
  rfl

end Restart

end Amel
