import Mathlib.Data.List.Induction
import Mathlib.Data.List.Sort
import Mathlib.Data.PNat.Defs
import Mathlib.Order.Lattice

universe u

namespace Windows

variable {α : Type u}

/-- The pairs of neighbours of a list of edges. -/
def consecutive (edges : List α) : List (α × α) := edges.zip edges.tail

theorem mem_of_mem_consecutive {edges : List α} {w : α × α} (member : w ∈ consecutive edges) :
    w.1 ∈ edges ∧ w.2 ∈ edges :=
  ⟨(List.of_mem_zip member).1, List.mem_of_mem_tail (List.of_mem_zip member).2⟩

/-- Every `n`-th element, counting from one. -/
def everyNth (n : ℕ+) (xs : List α) : List α :=
  (xs.zipIdx 1).filterMap fun (x, number) => if number % n = 0 then some x else none

theorem everyNth_append_singleton (n : ℕ+) (xs : List α) (x : α) :
    everyNth n (xs ++ [x]) = everyNth n xs ++ if (xs.length + 1) % n = 0 then [x] else [] := by
  rw [everyNth, List.zipIdx_append, List.filterMap_append, ← everyNth, Nat.add_comm 1]
  congr 1
  by_cases cut : (xs.length + 1) % (n : Nat) = 0
  · simp [cut]
  · simp [cut]

theorem length_everyNth (n : ℕ+) (xs : List α) : (everyNth n xs).length = xs.length / n := by
  induction xs using List.reverseRecOn with
  | nil => simp [everyNth]
  | append_singleton xs x ih =>
    rw [everyNth_append_singleton, List.length_append, ih, List.length_append, List.length_singleton, Nat.succ_div]
    by_cases cut : (xs.length + 1) % (n : Nat) = 0
    · simp [cut, Nat.dvd_of_mod_eq_zero cut]
    · simp [cut, Nat.dvd_iff_mod_eq_zero]

/-- The `i`-th of them closes the `i`-th block of `n`. -/
theorem getElem?_everyNth (n : ℕ+) (xs : List α) (i : Nat) :
    (everyNth n xs)[i]? = xs[(i + 1) * n - 1]? := by
  have positive := n.pos
  induction xs using List.reverseRecOn with
  | nil => simp [everyNth]
  | append_singleton xs x ih =>
    have counted := length_everyNth n xs
    have block : n ≤ (i + 1) * (n : Nat) := Nat.le_mul_of_pos_left _ (Nat.succ_pos i)
    have reached : i < (everyNth n xs).length ↔ (i + 1) * n ≤ xs.length := by
      rw [counted, ← Nat.le_div_iff_mul_le positive, Nat.succ_le_iff]
    rw [everyNth_append_singleton]
    by_cases inside : (i + 1) * n ≤ xs.length
    · rw [List.getElem?_append_left (reached.mpr inside), List.getElem?_append_left (by omega), ih]
    · have beyond := mt reached.mp inside
      rw [List.getElem?_append_right (Nat.not_lt.mp beyond), List.getElem?_append_right (by omega), counted]
      have whole (cut : (n : Nat) ∣ xs.length + 1) : (xs.length / n + 1) * n = xs.length + 1 := by
        rw [← Nat.succ_div_of_dvd cut, Nat.div_mul_cancel cut]
      by_cases closes : (i + 1) * n = xs.length + 1
      · have cut : (n : Nat) ∣ xs.length + 1 := closes ▸ Nat.dvd_mul_left _ _
        have last : xs.length / n = i := by
          have same := Nat.eq_of_mul_eq_mul_right positive ((whole cut).trans closes.symm)
          omega
        rw [if_pos (Nat.mod_eq_zero_of_dvd cut), last, closes]
        simp
      · have past : [x][(i + 1) * n - 1 - xs.length]? = none :=
          List.getElem?_eq_none (by rw [List.length_singleton]; omega)
        rw [past]
        split
        · rename_i cut
          have later : xs.length / n ≠ i := fun same => closes (same ▸ whole (Nat.dvd_of_mod_eq_zero cut))
          exact List.getElem?_eq_none (by rw [List.length_singleton]; omega)
        · simp

theorem everyNth_sublist (n : ℕ+) (xs : List α) : (everyNth n xs).Sublist xs := by
  induction xs using List.reverseRecOn with
  | nil => exact List.Sublist.refl _
  | append_singleton xs x ih =>
    rw [everyNth_append_singleton]
    split
    · exact ih.append (List.Sublist.refl _)
    · exact ih.append (List.nil_sublist _)

theorem mem_consecutive_iff {edges : List α} {w : α × α} :
    w ∈ consecutive edges ↔ ∃ i : Nat, edges[i]? = some w.1 ∧ edges[i + 1]? = some w.2 := by
  simp only [consecutive, List.mem_iff_getElem?, List.getElem?_zip_eq_some, List.getElem?_tail]

section Blocks

variable (n : ℕ+) (xs : List α)

/-- The `i`-th block: from one cut to the next, both included. -/
def block (i : Nat) : List α := (xs.drop (i * n - 1)).take ((i + 1) * n - (i * n - 1))

/-- What stands before the `i`-th block and after it. -/
def outside (i : Nat) : List α := xs.take (i * n - 1) ++ xs.drop ((i + 1) * n)

theorem length_block_le (i : Nat) : (block n xs i).length ≤ n + 1 := by
  have grown : (i + 1) * (n : Nat) = i * n + n := Nat.succ_mul ..
  rw [block, List.length_take]
  omega

theorem block_perm (i : Nat) : (block n xs i ++ outside n xs i).Perm xs := by
  have grown : (i + 1) * (n : Nat) = i * n + n := Nat.succ_mul ..
  have next : (i * n - 1) + ((i + 1) * n - (i * n - 1)) = (i + 1) * (n : Nat) := by omega
  have rest : xs.drop ((i + 1) * n) = (xs.drop (i * n - 1)).drop ((i + 1) * n - (i * n - 1)) := by
    rw [List.drop_drop, next]
  have apart : xs.take (i * n - 1) ++ (block n xs i ++ xs.drop ((i + 1) * n)) = xs := by
    rw [block, rest, List.take_append_drop, List.take_append_drop]
  conv => rhs; rw [← apart]
  rw [outside, ← List.append_assoc, ← List.append_assoc]
  exact List.perm_append_comm.append_right _

end Blocks

variable [LinearOrder α]

/-- The windows between a start, the boundaries strictly inside and an end,
those of no width left out. -/
def split (start stop : α) (boundaries : List α) : List (α × α) :=
  (consecutive (start :: (boundaries.filter fun b => start < b ∧ b < stop) ++ [stop])).filter fun w => w.1 < w.2

/-- A walk from at or below a point to above it crosses the point in some step. -/
theorem exists_step_across {a x b : α} (between : List α) (low : a ≤ x) (high : x < b) :
    ∃ w ∈ consecutive (a :: between ++ [b]), w.1 ≤ x ∧ x < w.2 := by
  induction between generalizing a with
  | nil => exact ⟨(a, b), List.mem_singleton.mpr rfl, low, high⟩
  | cons c rest ih =>
    rcases lt_or_ge x c with before | after
    · exact ⟨(a, c), List.mem_cons_self .., low, before⟩
    · obtain ⟨w, member, inside⟩ := ih after
      exact ⟨w, List.mem_cons_of_mem _ member, inside⟩

/-- The same for a walk from below a point to at or above it. -/
theorem exists_step_onto {a x b : α} (between : List α) (low : a < x) (high : x ≤ b) :
    ∃ w ∈ consecutive (a :: between ++ [b]), w.1 < x ∧ x ≤ w.2 := by
  induction between generalizing a with
  | nil => exact ⟨(a, b), List.mem_singleton.mpr rfl, low, high⟩
  | cons c rest ih =>
    rcases lt_or_ge c x with before | after
    · obtain ⟨w, member, inside⟩ := ih before
      exact ⟨w, List.mem_cons_of_mem _ member, inside⟩
    · exact ⟨(a, c), List.mem_cons_self .., low, after⟩

/-- The closed windows of a proper range cover it, whatever the boundaries. -/
theorem split_covers {start stop x : α} (boundaries : List α) (proper : start < stop) (low : start ≤ x)
    (high : x ≤ stop) : ∃ w ∈ split start stop boundaries, w.1 ≤ x ∧ x ≤ w.2 := by
  rcases high.lt_or_eq with inner | rfl
  · obtain ⟨w, member, left, right⟩ := exists_step_across (boundaries.filter fun b => start < b ∧ b < stop) low inner
    have wide : w.1 < w.2 := lt_of_le_of_lt left right
    exact ⟨w, List.mem_filter.mpr ⟨member, by simpa using wide⟩, left, right.le⟩
  · obtain ⟨w, member, left, right⟩ := exists_step_onto (boundaries.filter fun b => start < b ∧ b < x) proper le_rfl
    have wide : w.1 < w.2 := lt_of_lt_of_le left right
    exact ⟨w, List.mem_filter.mpr ⟨member, by simpa using wide⟩, left.le, right⟩

/-- Each window is proper and lies inside the range. -/
theorem split_inside {start stop : α} {boundaries : List α} {w : α × α} (proper : start ≤ stop)
    (member : w ∈ split start stop boundaries) : start ≤ w.1 ∧ w.1 < w.2 ∧ w.2 ≤ stop := by
  obtain ⟨inSteps, wide⟩ := List.mem_filter.mp member
  have within (edge : α)
      (isEdge : edge ∈ start :: (boundaries.filter fun b => start < b ∧ b < stop) ++ [stop]) :
      start ≤ edge ∧ edge ≤ stop := by
    rcases List.mem_append.mp isEdge with front | last
    · rcases List.mem_cons.mp front with rfl | interior
      · exact ⟨le_rfl, proper⟩
      · have bounds : start < edge ∧ edge < stop := by simpa using (List.mem_filter.mp interior).2
        exact ⟨bounds.1.le, bounds.2.le⟩
    · rw [List.mem_singleton.mp last]
      exact ⟨proper, le_rfl⟩
  obtain ⟨first, second⟩ := mem_of_mem_consecutive inSteps
  exact ⟨(within _ first).1, by simpa using wide, (within _ second).2⟩

/-- Proper windows from `start` to `stop`, each beginning where the one before ends. -/
inductive Tiles : α → List (α × α) → α → Prop
  | nil (a) : Tiles a [] a
  | cons {a b c windows} : a < b → Tiles b windows c → Tiles a ((a, b) :: windows) c

namespace Tiles

variable {a b : α} {windows : List (α × α)}

theorem proper (tiles : Tiles a windows b) : ∀ w ∈ windows, w.1 < w.2 := by
  induction tiles with
  | nil => simp
  | cons wide _ ih => exact List.forall_mem_cons.mpr ⟨wide, ih⟩

theorem first (tiles : Tiles a windows b) {w : α × α} (isFirst : windows.head? = some w) : w.1 = a := by
  cases tiles with
  | nil => simp at isFirst
  | cons wide _ => simp at isFirst; rw [← isFirst]

theorem last (tiles : Tiles a windows b) {w : α × α} (isLast : windows.getLast? = some w) : w.2 = b := by
  induction tiles with
  | nil => simp at isLast
  | @cons a b c windows wide rest ih =>
    cases rest with
    | nil => simp at isLast; rw [← isLast]
    | cons => exact ih (by simpa using isLast)

theorem shared (tiles : Tiles a windows b) : windows.IsChain fun v w => v.2 = w.1 := by
  induction tiles with
  | nil => exact .nil
  | @cons a b c windows wide rest ih =>
    cases rest with
    | nil => exact .singleton _
    | cons => exact .cons_cons rfl ih

/-- The edges, read off the right ends and off the left ends. -/
theorem edges (tiles : Tiles a windows b) : a :: windows.map Prod.snd = windows.map Prod.fst ++ [b] := by
  induction tiles with
  | nil => rfl
  | cons _ _ ih => rw [List.map_cons, List.map_cons, ih, List.cons_append]

theorem increasing (tiles : Tiles a windows b) : (a :: windows.map Prod.snd).Pairwise (· < ·) := by
  induction tiles with
  | nil => exact List.pairwise_singleton _ _
  | cons wide _ ih =>
    rw [List.map_cons]
    refine List.pairwise_cons.mpr ⟨fun edge member => ?_, ih⟩
    rcases List.mem_cons.mp member with rfl | later
    · exact wide
    · exact wide.trans ((List.pairwise_cons.mp ih).1 edge later)

/-- Two windows have no more in common than an end point. -/
theorem apart (tiles : Tiles a windows b) : windows.Pairwise fun v w => v.2 ≤ w.1 := by
  induction tiles with
  | nil => exact .nil
  | @cons a b c windows _ rest ih =>
    refine List.pairwise_cons.mpr ⟨fun w member => ?_, ih⟩
    have front : w.1 ∈ b :: windows.map Prod.snd := by
      rw [rest.edges]
      exact List.mem_append_left _ (List.mem_map_of_mem member)
    rcases List.mem_cons.mp front with same | later
    · exact same.ge
    · exact ((List.pairwise_cons.mp rest.increasing).1 _ later).le

end Tiles

theorem consecutive_tiles {start : α} {rest : List α} (sorted : (start :: rest).Pairwise (· ≤ ·)) :
    Tiles start ((consecutive (start :: rest)).filter fun w => w.1 < w.2) ((start :: rest).getLast (by simp)) := by
  induction rest generalizing start with
  | nil => exact .nil start
  | cons next rest ih =>
    have onward := ih (List.pairwise_cons.mp sorted).2
    have below : start ≤ next := (List.pairwise_cons.mp sorted).1 next (List.mem_cons_self ..)
    have unfolded : consecutive (start :: next :: rest) = (start, next) :: consecutive (next :: rest) := rfl
    rw [unfolded, List.filter_cons, List.getLast_cons (by simp)]
    rcases below.lt_or_eq with wide | rfl
    · rw [if_pos (by simpa using wide)]
      exact .cons wide onward
    · rw [if_neg (by simp)]
      exact onward

/-- Over sorted boundaries that reach neither below the start nor up to the
end, leaving out those at the start leaves out no window. -/
theorem split_sorted {start stop : α} {boundaries : List α} (sorted : boundaries.Pairwise (· ≤ ·))
    (inside : ∀ b ∈ boundaries, start ≤ b ∧ b < stop) :
    split start stop boundaries = (consecutive (start :: boundaries ++ [stop])).filter fun w => w.1 < w.2 := by
  induction boundaries with
  | nil => rfl
  | cons b rest ih =>
    obtain ⟨ahead, sortedRest⟩ := List.pairwise_cons.mp sorted
    obtain ⟨low, high⟩ := inside b (List.mem_cons_self ..)
    rcases low.lt_or_eq with above | rfl
    · have kept : (b :: rest).filter (fun b => start < b ∧ b < stop) = b :: rest :=
        List.filter_eq_self.mpr fun c member => by
          have later : b ≤ c := by
            rcases List.mem_cons.mp member with rfl | inRest
            · exact le_rfl
            · exact ahead c inRest
          simpa using ⟨above.trans_le later, (inside c member).2⟩
      rw [split, kept]
    · have dropped := ih sortedRest fun c member => inside c (List.mem_cons_of_mem _ member)
      have unfolded : consecutive (start :: (start :: rest) ++ [stop]) =
          (start, start) :: consecutive (start :: rest ++ [stop]) := rfl
      rw [unfolded, List.filter_cons, if_neg (by simp), ← dropped, split, split, List.filter_cons,
        if_neg (by simp)]

theorem edges_sorted {start stop : α} {boundaries : List α} (proper : start ≤ stop)
    (sorted : boundaries.Pairwise (· ≤ ·)) :
    (start :: ((boundaries.filter fun b => start < b ∧ b < stop) ++ [stop])).Pairwise (· ≤ ·) := by
  have between (b : α) (member : b ∈ boundaries.filter fun b => start < b ∧ b < stop) : start < b ∧ b < stop := by
    simpa using (List.mem_filter.mp member).2
  rw [List.pairwise_cons, List.pairwise_append]
  refine ⟨fun b member => ?_, sorted.sublist List.filter_sublist, List.pairwise_singleton _ _, ?_⟩
  · rcases List.mem_append.mp member with boundary | isStop
    · exact (between b boundary).1.le
    · exact List.mem_singleton.mp isStop ▸ proper
  · intro b member c isStop
    exact List.mem_singleton.mp isStop ▸ (between b member).2.le

theorem split_tiles {start stop : α} {boundaries : List α} (proper : start ≤ stop)
    (sorted : boundaries.Pairwise (· ≤ ·)) : Tiles start (split start stop boundaries) stop := by
  have tiles := consecutive_tiles (edges_sorted proper sorted)
  have last : (start :: ((boundaries.filter fun b => start < b ∧ b < stop) ++ [stop])).getLast (by simp) = stop := by
    rw [List.getLast_cons (by simp), List.getLast_append_of_ne_nil (by simp) (by simp)]
    rfl
  rw [last] at tiles
  rw [split, List.cons_append]
  exact tiles

/-- Of sorted edges only repeated ones are left out. -/
theorem mem_edges_consecutive {start x : α} {rest : List α} (sorted : (start :: rest).Pairwise (· ≤ ·)) :
    x ∈ start :: ((consecutive (start :: rest)).filter fun w => w.1 < w.2).map Prod.snd ↔ x ∈ start :: rest := by
  induction rest generalizing start with
  | nil => rfl
  | cons next rest ih =>
    have onward := ih (List.pairwise_cons.mp sorted).2
    have below : start ≤ next := (List.pairwise_cons.mp sorted).1 next (List.mem_cons_self ..)
    have unfolded : consecutive (start :: next :: rest) = (start, next) :: consecutive (next :: rest) := rfl
    rw [unfolded, List.filter_cons]
    rcases below.lt_or_eq with wide | rfl
    · rw [if_pos (by simpa using wide), List.map_cons, List.mem_cons, onward, List.mem_cons (b := start)]
    · rw [if_neg (by simp), onward]
      simp

/-- Where there is no range there is no window. -/
theorem split_eq_nil {start stop : α} {boundaries : List α} (none : stop ≤ start) :
    split start stop boundaries = [] := by
  have noBoundary : (boundaries.filter fun b => start < b ∧ b < stop) = [] :=
    List.filter_eq_nil_iff.mpr fun b _ between => by
      have proper : start < b ∧ b < stop := by simpa using between
      exact absurd (proper.1.trans proper.2) none.not_gt
  have step : consecutive (start :: [] ++ [stop]) = [(start, stop)] := rfl
  rw [split, noBoundary, step, List.filter_cons, if_neg (by simpa using none)]
  rfl

/-- What a list of windows has to be to split a range at some boundaries. The
last field is about boundaries in order: `cuts` are the distinct ones strictly
inside, each of them the end of one window and the start of the next. -/
structure Splitting (start stop : α) (boundaries : List α) (windows : List (α × α)) : Prop where
  proper : ∀ w ∈ windows, start ≤ w.1 ∧ w.1 < w.2 ∧ w.2 ≤ stop
  covers : start < stop → ∀ x, (∃ w ∈ windows, w.1 ≤ x ∧ x ≤ w.2) ↔ start ≤ x ∧ x ≤ stop
  none : stop ≤ start → windows = []
  contiguous : boundaries.Pairwise (· ≤ ·) → windows.IsChain fun v w => v.2 = w.1
  apart : boundaries.Pairwise (· ≤ ·) → windows.Pairwise fun v w => v.2 ≤ w.1
  cut : start < stop → boundaries.Pairwise (· ≤ ·) → ∃ cuts : List α,
    windows.map Prod.fst = start :: cuts ∧ windows.map Prod.snd = cuts ++ [stop] ∧ cuts.length + 1 = windows.length ∧
      cuts.Pairwise (· < ·) ∧ ∀ b, b ∈ cuts ↔ b ∈ boundaries ∧ start < b ∧ b < stop

theorem split_cuts {start stop : α} {boundaries : List α} (proper : start < stop)
    (sorted : boundaries.Pairwise (· ≤ ·)) : ∃ cuts : List α,
      (split start stop boundaries).map Prod.fst = start :: cuts ∧
      (split start stop boundaries).map Prod.snd = cuts ++ [stop] ∧
      cuts.length + 1 = (split start stop boundaries).length ∧
      cuts.Pairwise (· < ·) ∧ ∀ b, b ∈ cuts ↔ b ∈ boundaries ∧ start < b ∧ b < stop := by
  have tiles := split_tiles proper.le sorted
  have edges (x : α) := mem_edges_consecutive (x := x) (edges_sorted proper.le sorted)
  rw [← List.cons_append, ← split] at edges
  generalize split start stop boundaries = windows at tiles edges
  cases tiles with
  | nil => exact absurd proper (lt_irrefl _)
  | @cons _ next _ rest wide onward =>
    have shared : (rest.map Prod.fst) ++ [stop] = next :: rest.map Prod.snd := onward.edges.symm
    have ordered : (start :: (rest.map Prod.fst ++ [stop])).Pairwise (· < ·) :=
      shared ▸ (Tiles.cons wide onward).increasing
    obtain ⟨above, ordered⟩ := List.pairwise_cons.mp ordered
    obtain ⟨increasing, -, below⟩ := List.pairwise_append.mp ordered
    refine ⟨rest.map Prod.fst, rfl, shared.symm, by simp, increasing, fun b => ?_⟩
    have known := edges b
    rw [List.map_cons, ← shared] at known
    simp only [List.cons_append, List.mem_cons, List.mem_append, List.mem_filter, List.not_mem_nil, or_false,
      decide_eq_true_eq] at known
    constructor
    · intro isCut
      have low := above b (List.mem_append_left _ isCut)
      have high := below b isCut stop (List.mem_singleton.mpr rfl)
      rcases known.mp (Or.inr (Or.inl isCut)) with same | boundary | same
      · exact absurd same low.ne'
      · exact boundary
      · exact absurd same high.ne
    · rintro ⟨boundary, low, high⟩
      rcases known.mpr (Or.inr (Or.inl ⟨boundary, low, high⟩)) with same | isCut | same
      · exact absurd same low.ne'
      · exact isCut
      · exact absurd same high.ne

theorem split_splitting (start stop : α) (boundaries : List α) :
    Splitting start stop boundaries (split start stop boundaries) where
  proper w member := by
    rcases le_total start stop with proper | reversed
    · exact split_inside proper member
    · rw [split_eq_nil reversed] at member
      exact absurd member List.not_mem_nil
  covers proper x := by
    constructor
    · rintro ⟨w, member, low, high⟩
      obtain ⟨left, -, right⟩ := split_inside proper.le member
      exact ⟨left.trans low, high.trans right⟩
    · rintro ⟨low, high⟩
      exact split_covers boundaries proper low high
  none := split_eq_nil
  contiguous sorted := by
    rcases le_total start stop with proper | reversed
    · exact (split_tiles proper sorted).shared
    · rw [split_eq_nil reversed]
      exact .nil
  apart sorted := by
    rcases le_total start stop with proper | reversed
    · exact (split_tiles proper sorted).apart
    · rw [split_eq_nil reversed]
      exact .nil
  cut := split_cuts

/-- The windows of every `n`-th row are those between one cut and the next. -/
theorem mem_split_everyNth (n : ℕ+) {xs : List α} {start stop : α} {w : α × α} (sorted : xs.Pairwise (· ≤ ·))
    (least : xs.head? = some start) (below : ∀ x ∈ xs, x < stop) :
    w ∈ split start stop (everyNth n xs) ↔
      ∃ i : Nat, xs[i * n - 1]? = some w.1 ∧ (xs[(i + 1) * n - 1]?).getD stop = w.2 ∧ w.1 < w.2 := by
  have positive := n.pos
  have counted := length_everyNth n xs
  have cuts := everyNth_sublist n xs
  obtain ⟨tail, rfl⟩ : ∃ tail, xs = start :: tail := List.head?_eq_some_iff.mp least
  set xs := start :: tail with isXs
  have inside (b : α) (member : b ∈ everyNth n xs) : start ≤ b ∧ b < stop := by
    have isRow := cuts.subset member
    refine ⟨?_, below b isRow⟩
    rcases List.mem_cons.mp isRow with rfl | later
    · exact le_rfl
    · exact (List.pairwise_cons.mp sorted).1 b later
  have reached (i : Nat) : i ≤ (everyNth n xs).length ↔ i * n - 1 < xs.length := by
    rw [counted, Nat.le_div_iff_mul_le positive]
    have some : 0 < xs.length := by simp [isXs]
    omega
  have lower (i : Nat) (within : i ≤ (everyNth n xs).length) :
      (start :: everyNth n xs ++ [stop])[i]? = xs[i * n - 1]? := by
    cases i with
    | zero => simp [isXs]
    | succ i =>
      rw [List.cons_append, List.getElem?_cons_succ, List.getElem?_append_left (by omega), getElem?_everyNth]
  have upper (i : Nat) (within : i ≤ (everyNth n xs).length) :
      (start :: everyNth n xs ++ [stop])[i + 1]? = some ((xs[(i + 1) * n - 1]?).getD stop) := by
    rw [List.cons_append, List.getElem?_cons_succ, ← getElem?_everyNth]
    rcases within.lt_or_eq with inner | rfl
    · rw [List.getElem?_append_left inner, List.getElem?_eq_getElem inner]
      rfl
    · simp
  have ends (i : Nat) (edge : α) (found : (start :: everyNth n xs ++ [stop])[i + 1]? = some edge) :
      i ≤ (everyNth n xs).length := by
    have bound := (List.getElem?_eq_some_iff.mp found).1
    simp only [List.length_append, List.length_cons, List.length_nil] at bound
    omega
  rw [split_sorted (sorted.sublist cuts) inside, List.mem_filter, mem_consecutive_iff, decide_eq_true_eq]
  constructor
  · rintro ⟨⟨i, isLower, isUpper⟩, wide⟩
    have within := ends i _ isUpper
    rw [lower i within] at isLower
    rw [upper i within, Option.some_inj] at isUpper
    exact ⟨i, isLower, isUpper, wide⟩
  · rintro ⟨i, isLower, isUpper, wide⟩
    have within := (reached i).mpr (List.getElem?_eq_some_iff.mp isLower).1
    exact ⟨⟨i, (lower i within).trans isLower, by rw [upper i within, isUpper]⟩, wide⟩

section Blocks

variable (n : ℕ+) {xs : List α} {i : Nat} {low high stop x : α}

/-- The rows of a block lie between the cuts that bound it. -/
theorem block_within (sorted : xs.Pairwise (· ≤ ·)) (below : ∀ x ∈ xs, x < stop)
    (atLow : xs[i * n - 1]? = some low) (atHigh : (xs[(i + 1) * n - 1]?).getD stop = high)
    (member : x ∈ block n xs i) : low ≤ x ∧ x ≤ high := by
  have grown : (i + 1) * (n : Nat) = i * n + n := Nat.succ_mul ..
  have positive := n.pos
  have ordered := List.pairwise_iff_getElem.mp sorted
  obtain ⟨lowBound, isLow⟩ := List.getElem?_eq_some_iff.mp atLow
  obtain ⟨j, inBlock, isRow⟩ := List.getElem_of_mem member
  have bound : i * n - 1 + j < (i + 1) * n ∧ i * n - 1 + j < xs.length := by
    rw [block, List.length_take, List.length_drop] at inBlock
    omega
  have inside := bound.2
  have place : xs[i * n - 1 + j] = x := by
    rw [← isRow]
    simp [block]
  constructor
  · by_cases first : j = 0
    · subst first
      exact (isLow.symm.trans place).le
    · rw [← isLow, ← place]
      exact ordered _ _ _ _ (by omega)
  · by_cases cut : (i + 1) * n - 1 < xs.length
    · rw [List.getElem?_eq_getElem cut, Option.getD_some] at atHigh
      by_cases closing : i * n - 1 + j = (i + 1) * n - 1
      · rw [← atHigh, ← place]
        simp only [closing, le_refl]
      · rw [← atHigh, ← place]
        exact ordered _ _ _ _ (by omega)
    · rw [List.getElem?_eq_none (Nat.not_lt.mp cut), Option.getD_none] at atHigh
      exact atHigh ▸ (below x (place ▸ List.getElem_mem bound.2)).le

omit [LinearOrder α] in
/-- What stands outside a block stands before its first cut or after its last. -/
theorem outside_apart {R : α → α → Prop} (ordered : xs.Pairwise R) (atLow : xs[i * n - 1]? = some low)
    (atHigh : (xs[(i + 1) * n - 1]?).getD stop = high) (member : x ∈ outside n xs i) : R x low ∨ R high x := by
  have positive := n.pos
  have grown : (i + 1) * (n : Nat) = i * n + n := Nat.succ_mul ..
  have related := List.pairwise_iff_getElem.mp ordered
  obtain ⟨lowBound, isLow⟩ := List.getElem?_eq_some_iff.mp atLow
  rcases List.mem_append.mp member with before | after
  · obtain ⟨j, inside, isRow⟩ := List.getElem_of_mem before
    rw [List.length_take] at inside
    rw [List.getElem_take] at isRow
    rw [← isRow, ← isLow]
    exact Or.inl (related _ _ _ _ (by omega))
  · obtain ⟨j, inside, isRow⟩ := List.getElem_of_mem after
    rw [List.length_drop] at inside
    rw [List.getElem_drop] at isRow
    rw [List.getElem?_eq_getElem (by omega), Option.getD_some] at atHigh
    rw [← isRow, ← atHigh]
    exact Or.inr (related _ _ _ _ (by omega))

end Blocks

end Windows
