import Mathlib.Data.List.DropRight

namespace Python.Path

/-- The names on the way from the root of a file system. -/
abbrev Place := List (List Char)

/-- `os.path.join(path, name)`. -/
def join (path name : List Char) : List Char :=
  if name.head? = some '/' then name
  else if path = [] ∨ path.getLast? = some '/' then path ++ name
  else path ++ '/' :: name

/-- `os.path.dirname(path)`. -/
def dirname (path : List Char) : List Char :=
  let head := path.rdropWhile (· ≠ '/')
  if head.all (· = '/') then head else head.rdropWhile (· = '/')

/-- One part of a path, where there are no symbolic links. -/
def walk (place : Place) (part : List Char) : Place :=
  if part = [] ∨ part = ['.'] then place
  else if part = ['.', '.'] then place.dropLast
  else place ++ [part]

/-- Where a path leads from the working directory. -/
def resolve (cwd : Place) (path : List Char) : Place :=
  (path.splitOn '/').foldl walk (if path.head? = some '/' then [] else cwd)

example : resolve [] (join "/opt/airflow/staging".toList "..".toList) = ["opt".toList, "airflow".toList] := by
  decide +kernel

/-- One name: it is not empty and has no slash. -/
structure Name (name : List Char) : Prop where
  nonempty : name ≠ []
  single : '/' ∉ name

/-- A name that stands for an entry of the directory. -/
structure Entry (name : List Char) : Prop extends Name name where
  notSelf : name ≠ ['.']
  notParent : name ≠ ['.', '.']

variable {cwd place : Place} {path name other : List Char}

theorem Name.head_ne (isName : Name name) : name.head? ≠ some '/' :=
  fun first => isName.single (List.mem_of_head? first)

theorem Name.join (isName : Name name) (path : List Char) :
    Path.join path name = path ++ name ∧ (path = [] ∨ path.getLast? = some '/') ∨
      Path.join path name = path ++ '/' :: name ∧ path ≠ [] := by
  unfold Path.join
  rw [if_neg isName.head_ne]
  split
  · rename_i closed
    exact Or.inl ⟨rfl, closed⟩
  · rename_i unclosed
    exact Or.inr ⟨rfl, fun empty => unclosed (Or.inl empty)⟩

theorem join_ne_nil (isName : Name name) : join path name ≠ [] := by
  rcases isName.join path with ⟨joined, _⟩ | ⟨joined, _⟩
  · exact joined ▸ List.append_ne_nil_of_right_ne_nil _ isName.nonempty
  · exact joined ▸ List.append_ne_nil_of_right_ne_nil _ (List.cons_ne_nil _ _)

/-- What ends in a name is not closed by a slash. -/
theorem join_unclosed (isName : Name name) : (join path name).getLast? ≠ some '/' := by
  intro closed
  refine isName.single (List.mem_of_getLast? (closed ▸ ?_))
  rcases isName.join path with ⟨joined, _⟩ | ⟨joined, _⟩
  · rw [joined, List.getLast?_append_of_ne_nil _ isName.nonempty]
  · rw [joined, List.getLast?_append_of_ne_nil _ (List.cons_ne_nil _ _), List.getLast?_cons_of_ne_nil isName.nonempty]

/-- Joined to one path different names give different paths. -/
theorem join_inj (isName : Name name) (isOther : Name other) : join path name = join path other ↔ name = other := by
  unfold join
  rw [if_neg isName.head_ne, if_neg isOther.head_ne]
  split
  · rw [List.append_cancel_left_eq]
  · rw [List.append_cancel_left_eq, List.cons.injEq, and_iff_right rfl]

theorem walk_self (place : Place) : walk place [] = place := if_pos (Or.inl rfl)

theorem walk_entry (isEntry : Entry name) : walk place name = place ++ [name] := by
  unfold walk
  rw [if_neg (not_or.mpr ⟨isEntry.nonempty, isEntry.notSelf⟩), if_neg isEntry.notParent]

theorem splitOn_snoc (path : List Char) (single : '/' ∉ name) :
    (path ++ '/' :: name).splitOn '/' = path.splitOn '/' ++ [name] := by
  rw [List.splitOn_append_cons_self, List.splitOn_eq_singleton single]

/-- The name is the last part of the path, whether or not a slash is put
before it. -/
theorem resolve_join (isName : Name name) : resolve cwd (join path name) = walk (resolve cwd path) name := by
  rcases isName.join path with ⟨joined, rfl | closed⟩ | ⟨joined, nonempty⟩
  · rw [joined, List.nil_append, resolve, resolve, if_neg isName.head_ne, List.splitOn_eq_singleton isName.single]
    rfl
  · obtain ⟨first, rfl⟩ := List.getLast?_eq_some_iff.mp closed
    have start : (first ++ '/' :: name).head? = (first ++ ['/']).head? := by
      cases first <;> rfl
    rw [joined, List.append_assoc, List.singleton_append, resolve, resolve, start, splitOn_snoc _ isName.single,
      splitOn_snoc _ List.not_mem_nil, List.foldl_append, List.foldl_append]
    simp only [List.foldl_cons, List.foldl_nil, walk_self]
  · have start : (path ++ '/' :: name).head? = path.head? := List.head?_append_of_ne_nil _ nonempty
    rw [joined, resolve, resolve, start, splitOn_snoc _ isName.single, List.foldl_append]
    rfl

theorem rdropWhile_name (path : List Char) (single : '/' ∉ name) :
    (path ++ '/' :: name).rdropWhile (· ≠ '/') = path ++ ['/'] := by
  induction name using List.reverseRecOn with
  | nil => exact List.rdropWhile_concat_neg _ _ _ (by decide)
  | append_singleton first c ih =>
    have other : c ≠ '/' := fun same => single (List.mem_append_right _ (List.mem_singleton.mpr same.symm))
    rw [← List.cons_append, ← List.append_assoc, List.rdropWhile_concat, if_pos (decide_eq_true other)]
    exact ih fun member => single (List.mem_append_left _ member)

/-- The directory of what was joined to a path is the path. -/
theorem dirname_join (isName : Name name) (nonempty : path ≠ []) (unclosed : path.getLast? ≠ some '/') :
    dirname (join path name) = path := by
  have joined : join path name = path ++ '/' :: name := by
    rw [join, if_neg isName.head_ne, if_neg (not_or.mpr ⟨nonempty, unclosed⟩)]
  obtain ⟨first, c, rfl⟩ := (List.eq_nil_or_concat' path).resolve_left nonempty
  have other : c ≠ '/' := by
    intro same
    exact unclosed (by rw [List.getLast?_concat, same])
  have named : ¬(first ++ [c] ++ ['/']).all (· = '/') = true := by
    intro slashes
    have all := List.all_eq_true.mp slashes c (by simp)
    exact other (of_decide_eq_true all)
  rw [dirname, joined, rdropWhile_name _ isName.single]
  rw [if_neg named, List.rdropWhile_concat, if_pos (decide_eq_true rfl), List.rdropWhile_concat, if_neg]
  exact fun same => other (of_decide_eq_true same)

/-- Up to the parent nothing is outside. -/
theorem parent_prefix (place : Place) (part : List Char) : place.dropLast <+: walk place part := by
  unfold walk
  split
  · exact List.dropLast_prefix place
  · split
    · exact List.prefix_rfl
    · exact (List.dropLast_prefix place).trans (List.prefix_append ..)

theorem walk_prefix (notParent : name ≠ ['.', '.']) : place <+: walk place name := by
  unfold walk
  rw [if_neg notParent]
  split
  · exact List.prefix_rfl
  · exact List.prefix_append ..

end Python.Path
