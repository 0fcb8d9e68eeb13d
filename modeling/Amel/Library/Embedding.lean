import Amel.Library.Program

universe u v w x y

namespace Program

variable {Call : Type u} {Extra : Type v} {Reply : Call → Type w} {ReplyExtra : Extra → Type w} {Error : Type x}
  {α : Type y}

/-- The program where other calls are possible beside its own. -/
def inl : Program Call Reply Error α → Program (Call ⊕ Extra) (Sum.elim Reply ReplyExtra) Error α
  | pure value => pure value
  | raise error => raise error
  | call request resume => call (.inl request) fun reply => (resume reply).inl

/-- The exchanges of one of the two kinds. -/
def lefts (past : List (Exchange (Sum.elim Reply ReplyExtra))) : List (Exchange Reply) :=
  past.filterMap fun
    | ⟨.inl request, reply⟩ => some ⟨request, reply⟩
    | ⟨.inr _, _⟩ => none

variable {past : List (Exchange (Sum.elim Reply ReplyExtra))}

@[simp] theorem lefts_nil : lefts ([] : List (Exchange (Sum.elim Reply ReplyExtra))) = [] := rfl

@[simp] theorem lefts_snoc_inl (past : List (Exchange (Sum.elim Reply ReplyExtra))) (request : Call)
    (reply : Reply request) :
    lefts (past ++ [(⟨.inl request, reply⟩ : Exchange (Sum.elim Reply ReplyExtra))]) = lefts past ++ [⟨request, reply⟩] := by
  rw [lefts, List.filterMap_append]
  rfl

@[simp] theorem lefts_snoc_inr (past : List (Exchange (Sum.elim Reply ReplyExtra))) (request : Extra)
    (reply : ReplyExtra request) :
    lefts (past ++ [(⟨.inr request, reply⟩ : Exchange (Sum.elim Reply ReplyExtra))]) = lefts past := by
  rw [lefts, List.filterMap_append]
  exact List.append_nil _

theorem lefts_prefix {later : List (Exchange (Sum.elim Reply ReplyExtra))} (since : past <+: later) :
    lefts past <+: lefts later := by
  obtain ⟨rest, rfl⟩ := since
  rw [lefts, lefts, List.filterMap_append]
  exact List.prefix_append ..

theorem mem_of_lefts {exchange : Exchange Reply} (member : exchange ∈ lefts past) :
    (⟨.inl exchange.1, exchange.2⟩ : Exchange (Sum.elim Reply ReplyExtra)) ∈ past := by
  obtain ⟨⟨request, reply⟩, made, same⟩ := List.mem_filterMap.mp member
  cases request with
  | inl =>
    cases same
    exact made
  | inr => cases same

/-- What the program obeys by itself it obeys among other calls. -/
theorem Obeys.inl {rule : List (Exchange Reply) → Call → Prop} {post : List (Exchange Reply) → Except Error α → Prop}
    {program : Program Call Reply Error α} (obeys : program.Obeys rule post (lefts past)) :
    (program.inl : Program (Call ⊕ Extra) (Sum.elim Reply ReplyExtra) Error α).Obeys
      (fun before => Sum.elim (rule (lefts before)) fun _ => True) (fun before => post (lefts before)) past := by
  induction program generalizing past with
  | pure | raise => exact obeys
  | call request resume ih =>
    refine ⟨obeys.1, fun (reply : Reply request) => ih reply ?_⟩
    have added := lefts_snoc_inl past request reply
    exact added ▸ obeys.2 reply

theorem Uses.inl {allowed : Call → Prop} {program : Program Call Reply Error α} (uses : program.Uses allowed) :
    (program.inl : Program (Call ⊕ Extra) (Sum.elim Reply ReplyExtra) Error α).Uses
      (Sum.elim allowed fun _ => False) := by
  induction program with
  | pure | raise => trivial
  | call request resume ih => exact ⟨uses.1, fun reply => ih reply (uses.2 reply)⟩

end Program
