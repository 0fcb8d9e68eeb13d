import Amel.Library.Transition

universe u v w x y

/-- A sequential program with the calls it makes to the outside left open:
it stops at each call and goes on from whatever comes back. -/
inductive Program (Call : Type u) (Reply : Call → Type v) (Error : Type w) (α : Type x)
  | pure (value : α)
  | raise (error : Error)
  | call (request : Call) (resume : Reply request → Program Call Reply Error α)

namespace Program

variable {Call : Type u} {Reply : Call → Type v} {Error : Type w} {α β : Type x} {State : Type y}

def bind : Program Call Reply Error α → (α → Program Call Reply Error β) → Program Call Reply Error β
  | pure value, next => next value
  | raise error, _ => raise error
  | call request resume, next => call request fun reply => (resume reply).bind next

instance : Monad (Program Call Reply Error) where
  pure := pure
  bind := bind

/-- `try` around a program. -/
def rescue : Program Call Reply Error α → (Error → Program Call Reply Error α) → Program Call Reply Error α
  | pure value, _ => pure value
  | raise error, handler => handler error
  | call request resume, handler => call request fun reply => (resume reply).rescue handler

/-- A call and what it returned. -/
abbrev Exchange (Reply : Call → Type v) := (request : Call) × Reply request

/-- After these exchanges the program stands at `rest`. -/
inductive Runs (program : Program Call Reply Error α) :
    List (Exchange Reply) → Program Call Reply Error α → Prop
  | start : Runs program [] program
  | answer {past request resume} (reply : Reply request) : Runs program past (.call request resume) →
      Runs program (past ++ [⟨request, reply⟩]) (resume reply)

/-- The program has ended so after these exchanges. -/
def Ends (program : Program Call Reply Error α) (past : List (Exchange Reply)) : Except Error α → Prop
  | .ok value => program.Runs past (.pure value)
  | .error error => program.Runs past (.raise error)

section Ends

variable {request : Call} {resume : Reply request → Program Call Reply Error α} {rest : Program Call Reply Error α}
  {past : List (Exchange Reply)} {result : Except Error α}

theorem Runs.of_call (runs : (call request resume).Runs past rest) :
    past = [] ∧ rest = call request resume ∨
      ∃ reply later, past = ⟨request, reply⟩ :: later ∧ (resume reply).Runs later rest := by
  induction runs with
  | start => exact Or.inl ⟨rfl, rfl⟩
  | answer reply _ ih =>
    rcases ih with ⟨rfl, same⟩ | ⟨earlier, later, rfl, runs⟩
    · cases same
      exact Or.inr ⟨reply, [], rfl, .start⟩
    · exact Or.inr ⟨earlier, _, rfl, runs.answer reply⟩

/-- A program that starts with a call ends as it does behind the reply. -/
theorem Ends.of_call (ends : (call request resume).Ends past result) :
    ∃ reply later, past = ⟨request, reply⟩ :: later ∧ (resume reply).Ends later result := by
  cases result with
  | ok | error =>
    rcases Runs.of_call ends with ⟨_, impossible⟩ | found
    · cases impossible
    · exact found

theorem Runs.of_reply {reply : Reply request} (runs : (resume reply).Runs past rest) :
    (call request resume).Runs (⟨request, reply⟩ :: past) rest := by
  induction runs with
  | start => exact .answer reply .start
  | answer later _ ih => exact ih.answer later

/-- As the program behind the reply ends, so does the one that makes the call. -/
theorem Ends.of_reply {reply : Reply request} (ends : (resume reply).Ends past result) :
    (call request resume).Ends (⟨request, reply⟩ :: past) result := by
  cases result with
  | ok | error => exact Runs.of_reply ends

/-- Where there is no call there is nothing to run. -/
theorem Runs.of_stopped {program : Program Call Reply Error α} (stopped : ∀ request resume, program ≠ call request resume)
    (runs : program.Runs past rest) : past = [] ∧ rest = program := by
  induction runs with
  | start => exact ⟨rfl, rfl⟩
  | answer _ _ ih => exact absurd ih.2.symm (stopped _ _)

theorem Ends.of_raise {error : Error} (ends : (raise error : Program Call Reply Error α).Ends past result) :
    result = .error error := by
  cases result with
  | ok => cases (Runs.of_stopped (by simp) ends).2
  | error other =>
    cases (Runs.of_stopped (by simp) ends).2
    rfl

end Ends

/-- Every call the program makes keeps the rule, and it ends as `post` says,
whatever the replies are. Both may look at the exchanges before. -/
def Obeys (rule : List (Exchange Reply) → Call → Prop) (post : List (Exchange Reply) → Except Error α → Prop) :
    Program Call Reply Error α → List (Exchange Reply) → Prop
  | pure value, past => post past (.ok value)
  | raise error, past => post past (.error error)
  | call request resume, past =>
    rule past request ∧ ∀ reply, (resume reply).Obeys rule post (past ++ [⟨request, reply⟩])

section Obeys

variable {rule : List (Exchange Reply) → Call → Prop} {post : List (Exchange Reply) → Except Error α → Prop}
  {program rest : Program Call Reply Error α} {past : List (Exchange Reply)}

/-- What a program obeys, the rest of it obeys. -/
theorem Runs.obeys (runs : program.Runs past rest) (obeys : program.Obeys rule post []) : rest.Obeys rule post past := by
  induction runs with
  | start => exact obeys
  | answer reply _ ih => exact ih.2 reply

/-- Every call made kept the rule when it was made. -/
theorem Runs.obeyed (runs : program.Runs past rest) (obeys : program.Obeys rule post []) {exchange : Exchange Reply}
    (made : exchange ∈ past) : ∃ before, before <+: past ∧ rule before exchange.1 := by
  induction runs with
  | start => cases made
  | answer reply runs ih =>
    rcases List.mem_append.mp made with earlier | last
    · obtain ⟨before, since, kept⟩ := ih earlier
      exact ⟨before, since.trans (List.prefix_append ..), kept⟩
    · rw [List.mem_singleton.mp last]
      exact ⟨_, List.prefix_append .., (Runs.obeys runs obeys).1⟩

theorem Ends.obeys {result : Except Error α} (ends : program.Ends past result) (obeys : program.Obeys rule post []) :
    post past result := by
  cases result with
  | ok value => exact Runs.obeys ends obeys
  | error error => exact Runs.obeys ends obeys

theorem Obeys.bind {next : α → Program Call Reply Error β} {last : List (Exchange Reply) → Except Error β → Prop}
    (first : program.Obeys rule post past)
    (raises : ∀ before error, post before (.error error) → last before (.error error))
    (goesOn : ∀ before value, post before (.ok value) → (next value).Obeys rule last before) :
    (program.bind next).Obeys rule last past := by
  induction program generalizing past with
  | pure value => exact goesOn past value first
  | raise error => exact raises past error first
  | call request resume ih => exact ⟨first.1, fun reply => ih reply (first.2 reply)⟩

theorem Obeys.rescue {handler : Error → Program Call Reply Error α}
    {last : List (Exchange Reply) → Except Error α → Prop} (first : program.Obeys rule post past)
    (caught : ∀ before error, post before (.error error) → (handler error).Obeys rule last before)
    (values : ∀ before value, post before (.ok value) → last before (.ok value)) :
    (program.rescue handler).Obeys rule last past := by
  induction program generalizing past with
  | pure value => exact values past value first
  | raise error => exact caught past error first
  | call request resume ih => exact ⟨first.1, fun reply => ih reply (first.2 reply)⟩

/-- The exchanges before stay the first ones. -/
theorem Obeys.since (obeys : program.Obeys rule post past) :
    program.Obeys rule (fun now result => past <+: now ∧ post now result) past := by
  have along (origin : List (Exchange Reply)) (since : origin <+: past) :
      program.Obeys rule (fun now result => origin <+: now ∧ post now result) past := by
    induction program generalizing past with
    | pure | raise => exact ⟨since, obeys⟩
    | call request resume ih =>
      exact ⟨obeys.1, fun reply => ih reply (obeys.2 reply) (since.trans (List.prefix_append ..))⟩
  exact along past List.prefix_rfl

theorem Obeys.and {other : List (Exchange Reply) → Except Error α → Prop}
    {otherRule : List (Exchange Reply) → Call → Prop} (first : program.Obeys rule post past)
    (second : program.Obeys otherRule other past) :
    program.Obeys rule (fun now result => post now result ∧ other now result) past := by
  induction program generalizing past with
  | pure | raise => exact ⟨first, second⟩
  | call request resume ih => exact ⟨first.1, fun reply => ih reply (first.2 reply) (second.2 reply)⟩

theorem Obeys.freely (obeys : program.Obeys rule post past) : program.Obeys (fun _ _ => True) post past := by
  induction program generalizing past with
  | pure | raise => exact obeys
  | call request resume ih => exact ⟨trivial, fun reply => ih reply (obeys.2 reply)⟩

theorem Obeys.mono {weaker : List (Exchange Reply) → Except Error α → Prop} (obeys : program.Obeys rule post past)
    (implies : ∀ before result, post before result → weaker before result) : program.Obeys rule weaker past := by
  induction program generalizing past with
  | pure value => exact implies _ _ obeys
  | raise error => exact implies _ _ obeys
  | call request resume ih => exact ⟨obeys.1, fun reply => ih reply (obeys.2 reply)⟩

end Obeys

/-- The run in which `answer` gives every reply. -/
def eval (answer : State → (request : Call) → Reply request × State) :
    Program Call Reply Error α → State → Except Error α × State
  | pure value, s => (.ok value, s)
  | raise error, s => (.error error, s)
  | call request resume, s => (resume (answer s request).1).eval answer (answer s request).2

theorem eval_bind (answer : State → (request : Call) → Reply request × State) (program : Program Call Reply Error α)
    (next : α → Program Call Reply Error β) (s : State) :
    (program.bind next).eval answer s =
      match program.eval answer s with
      | (.ok value, after) => (next value).eval answer after
      | (.error error, after) => (.error error, after) := by
  induction program generalizing s with
  | pure | raise => rfl
  | call request resume ih => exact ih _ _

theorem eval_rescue (answer : State → (request : Call) → Reply request × State) (program : Program Call Reply Error α)
    (handler : Error → Program Call Reply Error α) (s : State) :
    (program.rescue handler).eval answer s =
      match program.eval answer s with
      | (.ok value, after) => (.ok value, after)
      | (.error error, after) => (handler error).eval answer after := by
  induction program generalizing s with
  | pure | raise => rfl
  | call request resume ih => exact ih _ _

/-- Every call of the run in which `answer` gives every reply meets the
condition, with the rest of the program and the state it is made in. -/
def Throughout (answer : State → (request : Call) → Reply request × State)
    (holds : Program Call Reply Error α → State → Call → Prop) : Program Call Reply Error α → State → Prop
  | pure _, _ | raise _, _ => True
  | call request resume, s => holds (call request resume) s request ∧
    (resume (answer s request).1).Throughout answer holds (answer s request).2

section Throughout

variable {answer : State → (request : Call) → Reply request × State}
  {holds weaker : Program Call Reply Error α → State → Call → Prop}

instance decidableThroughout [∀ rest s request, Decidable (holds rest s request)] :
    (program : Program Call Reply Error α) → (s : State) → Decidable (program.Throughout answer holds s)
  | pure _, _ | raise _, _ => inferInstanceAs (Decidable True)
  | call request resume, s =>
    have := decidableThroughout (resume (answer s request).1) (answer s request).2
    inferInstanceAs (Decidable (_ ∧ _))

theorem Throughout.mono {program : Program Call Reply Error α} {s : State} (throughout : program.Throughout answer holds s)
    (implies : ∀ rest s request, holds rest s request → weaker rest s request) :
    program.Throughout answer weaker s := by
  induction program generalizing s with
  | pure | raise => trivial
  | call request resume ih => exact ⟨implies _ _ _ throughout.1, ih _ throughout.2⟩

theorem throughout_of_forall (always : ∀ rest s request, holds rest s request) (program : Program Call Reply Error α)
    (s : State) : program.Throughout answer holds s := by
  induction program generalizing s with
  | pure | raise => trivial
  | call request resume ih => exact ⟨always _ _ _, ih _ _⟩

end Throughout

/-- Only calls of one kind occur in the program. -/
def Uses (allowed : Call → Prop) : Program Call Reply Error α → Prop
  | pure _ | raise _ => True
  | call request resume => allowed request ∧ ∀ reply, (resume reply).Uses allowed

theorem Uses.bind {allowed : Call → Prop} {program : Program Call Reply Error α}
    {next : α → Program Call Reply Error β} (first : program.Uses allowed) (rest : ∀ value, (next value).Uses allowed) :
    (program.bind next).Uses allowed := by
  induction program with
  | pure value => exact rest value
  | raise error => trivial
  | call request resume ih => exact ⟨first.1, fun reply => ih reply (first.2 reply)⟩

theorem Uses.rescue {allowed : Call → Prop} {program : Program Call Reply Error α}
    {handler : Error → Program Call Reply Error α} (first : program.Uses allowed)
    (caught : ∀ error, (handler error).Uses allowed) : (program.rescue handler).Uses allowed := by
  induction program with
  | pure value => trivial
  | raise error => exact caught error
  | call request resume ih => exact ⟨first.1, fun reply => ih reply (first.2 reply)⟩

theorem Uses.mono {allowed wider : Call → Prop} {program : Program Call Reply Error α} (uses : program.Uses allowed)
    (weaker : ∀ request, allowed request → wider request) : program.Uses wider := by
  induction program with
  | pure | raise => trivial
  | call request resume ih => exact ⟨weaker request uses.1, fun reply => ih reply (uses.2 reply)⟩

/-- Calls of a kind that always keeps the rule. -/
theorem Uses.obeys {allowed : Call → Prop} {rule : List (Exchange Reply) → Call → Prop}
    {program : Program Call Reply Error α} {past : List (Exchange Reply)} (uses : program.Uses allowed)
    (keeps : ∀ past request, allowed request → rule past request) : program.Obeys rule (fun _ _ => True) past := by
  induction program generalizing past with
  | pure | raise => trivial
  | call request resume ih => exact ⟨keeps past request uses.1, fun reply => ih reply (uses.2 reply)⟩

theorem Uses.of_runs {allowed : Call → Prop} {program rest : Program Call Reply Error α}
    {past : List (Exchange Reply)} (uses : program.Uses allowed) (runs : program.Runs past rest) :
    rest.Uses allowed ∧ ∀ exchange ∈ past, allowed exchange.1 := by
  induction runs with
  | start => exact ⟨uses, fun _ member => absurd member List.not_mem_nil⟩
  | answer reply _ ih =>
    refine ⟨ih.1.2 reply, fun exchange member => ?_⟩
    rcases List.mem_append.mp member with earlier | last
    · exact ih.2 exchange earlier
    · rw [List.mem_singleton.mp last]
      exact ih.1.1

/-- The calls made are of the kind that the program uses. -/
theorem Uses.of_ends {allowed : Call → Prop} {program : Program Call Reply Error α} {past : List (Exchange Reply)}
    {result : Except Error α} (uses : program.Uses allowed) (ends : program.Ends past result) :
    ∀ exchange ∈ past, allowed exchange.1 := by
  cases result with
  | ok value => exact (uses.of_runs ends).2
  | error error => exact (uses.of_runs ends).2

/-- What every call of one kind leaves standing, a run of such calls does. -/
theorem Uses.eval {allowed : Call → Prop} {program : Program Call Reply Error α} (uses : program.Uses allowed)
    (answer : State → (request : Call) → Reply request × State) (holds : State → Prop)
    (kept : ∀ s request, allowed request → holds s → holds (answer s request).2) {s : State} (before : holds s) :
    holds (program.eval answer s).2 := by
  induction program generalizing s with
  | pure | raise => exact before
  | call request resume ih => exact ih _ (uses.2 _) (kept s request uses.1 before)

/-- From `s` on every state the calls of the program lead to keeps `inv`, and
where the program returns `post` holds, while others make the changes of
`rely`. What a call may do can depend on where in the program it stands. -/
def Outline (rely : State → State → Prop)
    (perform : Program Call Reply Error α → State → (request : Call) → Reply request → State → Prop)
    (inv : State → Prop) (post : α → State → Prop) : Program Call Reply Error α → State → Prop
  | pure value, s => ∀ now, rely s now → inv now → post value now
  | raise _, _ => True
  | call request resume, s => ∀ now, rely s now → inv now → ∀ reply after,
      perform (call request resume) now request reply after →
        inv after ∧ (resume reply).Outline rely perform inv post after

section Outline

variable {rely : State → State → Prop}
  {perform : Program Call Reply Error α → State → (request : Call) → Reply request → State → Prop}
  {inv : State → Prop} {post : α → State → Prop} {program : Program Call Reply Error α} {s now : State}

theorem Outline.interfered (trans : ∀ {a b c}, rely a b → rely b c → rely a c)
    (outline : program.Outline rely perform inv post s) (changed : rely s now) :
    program.Outline rely perform inv post now := by
  cases program with
  | pure => exact fun later changes => outline later (trans changed changes)
  | raise => trivial
  | call request resume => exact fun later changes => outline later (trans changed changes)

theorem Outline.mono {weaker : α → State → Prop} (outline : program.Outline rely perform inv post s)
    (implies : ∀ value now, inv now → post value now → weaker value now) :
    program.Outline rely perform inv weaker s := by
  induction program generalizing s with
  | pure => exact fun now changed valid => implies _ now valid (outline now changed valid)
  | raise => trivial
  | call request resume ih =>
    intro now changed valid reply after performed
    obtain ⟨kept, rest⟩ := outline now changed valid reply after performed
    exact ⟨kept, ih reply rest⟩

/-- Fewer outcomes of the calls. -/
theorem Outline.fewer {fewer : Program Call Reply Error α → State → (request : Call) → Reply request → State → Prop}
    (outline : program.Outline rely perform inv post s)
    (implies : ∀ {rest before request reply after}, fewer rest before request reply after →
      perform rest before request reply after) : program.Outline rely fewer inv post s := by
  induction program generalizing s with
  | pure => exact outline
  | raise => trivial
  | call request resume ih =>
    intro now changed valid reply after performed
    obtain ⟨kept, rest⟩ := outline now changed valid reply after (implies performed)
    exact ⟨kept, ih reply rest⟩

/-- One program after another. -/
theorem Outline.bind {next : α → Program Call Reply Error β} {last : β → State → Prop}
    {perform : Program Call Reply Error β → State → (request : Call) → Reply request → State → Prop}
    (refl : ∀ s, rely s s) (valid : inv s)
    (first : program.Outline rely (fun rest => perform (rest.bind next)) inv post s)
    (goesOn : ∀ value now, inv now → post value now → (next value).Outline rely perform inv last now) :
    (program.bind next).Outline rely perform inv last s := by
  induction program generalizing s with
  | pure value => exact goesOn value s valid (first s (refl s) valid)
  | raise => trivial
  | call request resume ih =>
    intro now changed validNow reply after performed
    obtain ⟨kept, rest⟩ := first now changed validNow reply after performed
    exact ⟨kept, ih reply kept rest⟩

/-- A fact that the calls of one kind and the others leave standing holds at
the end of a program that makes no other calls. -/
theorem Uses.outline {allowed : Call → Prop} {holds : State → Prop} (uses : program.Uses allowed)
    (stable : ∀ {a b}, rely a b → holds a → holds b)
    (kept : ∀ {rest before request reply after}, allowed request → perform rest before request reply after →
      inv before → holds before → inv after ∧ holds after) (base : holds s) :
    program.Outline rely perform inv (fun _ => holds) s := by
  induction program generalizing s with
  | pure => exact fun now changed _ => stable changed base
  | raise => trivial
  | call request resume ih =>
    intro now changed valid reply after performed
    obtain ⟨keeps, after⟩ := kept uses.1 performed valid (stable changed base)
    exact ⟨keeps, ih reply (uses.2 reply) after⟩

end Outline

end Program
