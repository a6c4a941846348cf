import NativeLink.Proofs.Context.Attendance
import NativeLink.Proofs.Session.Failure
import NativeLink.Proofs.Session.Notes

/-!
# Making operations

To make an operation is to ask for its routine and to check the arity of what is bound.  What
comes of it depends on the table alone if the routine is bound, and on the resolver alone if
it is not: `Session.Constructed` lists the three ways, each with the session it leaves.  That
is the session as it was, but for a warning, or the one in which a single run of the resolver
ended, with the routine bound or given up.  How often the resolver was asked is read off what
it notes.

From the answer on, the life of the context is settled in two of them.  An operation that was
made once is made again over the same binding, and one that was refused over a binding with
another arity is refused in the same words for ever, since bindings are permanent; no resolver
has a say in it.  Only after a resolver's own error is the next resolver asked again, for as
long as nobody has bound the routine by hand.  `Session.Lasting` says this.
-/

namespace NativeLink

variable {σ : Type}

theorem Operation.parse_text (o : Operation) : Signature.parse o.signature.text = .ok o.signature := by
  cases o <;> rfl

namespace Session

section

variable (resolver : Resolver σ) (o : Operation) (s : Session σ)

/-- Whoever asks for the routine of an operation in this session has an answer: if the routine is
not bound, the resolver returns. -/
def Answers : Prop :=
  s.table.get? o.symbol = none → ∃ result v,
    (resolver o.symbol o.signature).run (s.begun o.symbol o.signature) = (.returned result, v)

/-- The resolver is asked once for the routine, with the signature of the operation, and returns in
the session `v`. -/
structure Asked (result : Except ResolveError (Callable σ)) (v : Session σ) : Prop where
  unbound : s.table.get? o.symbol = none
  run : (resolver o.symbol o.signature).run (s.begun o.symbol o.signature) = (.returned result, v)
  once : (resolver.constructVisits o s).filter (fun v => v.name = o.symbol) =
    [.asked o.symbol o.signature, .answered o.symbol (.returned (result.map fun _ => ()))]
  /-- So it notes one question about the routine, and its answer. -/
  noted : ((construct resolver.noted o).notes s).filter (fun v => v.name = o.symbol) =
    [.asked o.symbol o.signature, .answered o.symbol (.returned (result.map fun _ => ()))]

/-- What an operation over a binding comes to. -/
inductive Over (b : Binding σ) : Except ResolveError (Invoker σ o.arity) → Prop where
  | fits (h : b.arity = o.arity) : Over b (.ok ⟨b, h⟩)
  | differs (h : b.arity ≠ o.arity) :
    Over b (.error (.arityMismatch o.symbol b.arity o.arity))

/-- The routine is found bound, and the resolver is not asked for anything. -/
structure Unasked : Prop where
  visits : resolver.constructVisits o s = [.found o.symbol]
  notes : (construct resolver.noted o).notes s = []

/-- What comes of making an operation, and the session that is left. -/
inductive Constructed : Except ResolveError (Invoker σ o.arity) → Session σ → Prop where
  /-- The routine is bound.  At most a warning is told. -/
  | found {b : Binding σ} {made : Except ResolveError (Invoker σ o.arity)}
    (bound : s.table.get? o.symbol = some b) (comes : Over o b made)
    (silent : Unasked resolver o s) :
    Constructed made (s.tell (b.conflict o.signature.text))
  /-- The resolver has made a callable.  What its run left is left, with the routine bound. -/
  | made {callable : Callable σ} {u v : Session σ} {invoker : Invoker σ o.arity}
    (asked : Asked resolver o s (.ok callable) v)
    (binding : invoker.binding = .make v.fresh o.symbol o.signature callable)
    (left : u = v.bound (s.table.acquire o.symbol).1 invoker.binding)
    (bound : u.table.get? o.symbol = some invoker.binding) : Constructed (.ok invoker) u
  /-- The resolver has answered an error.  What its run left is left, with the routine given up. -/
  | refused {error : ResolveError} {u v : Session σ}
    (asked : Asked resolver o s (.error error) v)
    (left : u = v.abandoned o.symbol (s.table.acquire o.symbol).1)
    (unbound : u.table.get? o.symbol = none) : Constructed (.error error) u

/-- For the rest of the life the operation comes to `made` over the binding `b`, and nobody is
asked for anything. -/
def Fixed (b : Binding σ) (made : Except ResolveError (Invoker σ o.arity)) : Prop :=
  ∀ t, Onward s t → ∀ resolver : Resolver σ,
    construct resolver o t = (.returned made, t.tell (b.conflict o.signature.text)) ∧
      Unasked resolver o t

/-- What the result of making an operation says about the rest of the life of the context. -/
structure Lasting (made : Except ResolveError (Invoker σ o.arity)) (u : Session σ) : Prop where
  /-- An operation that was made is made again over the same binding. -/
  kept : ∀ invoker, made = .ok invoker → Fixed o u invoker.binding (.ok invoker)
  /-- One that was refused over a binding is refused in the same words. -/
  barred : ∀ error b, made = .error error → s.table.get? o.symbol = some b →
    error = .arityMismatch o.symbol b.arity o.arity ∧ Fixed o u b (.error error)
  /-- After an error of the resolver, every resolver is asked until the routine is bound, and what
  it answers decides again. -/
  retried : ∀ error, made = .error error → s.table.get? o.symbol = none →
    u.table.get? o.symbol = none ∧ ∀ t, Later u t → t.table.get? o.symbol = none →
      ∀ resolver : Resolver σ,
        (∃ rest, (construct resolver.noted o).notes t = .asked o.symbol o.signature :: rest) ∧
        (Answers resolver o t → ∃ made w, construct resolver o t = (.returned made, w) ∧
          Constructed resolver o t made w)

end

section

variable {names : List String} {resolver : Resolver σ} {o : Operation} {s u v : Session σ}
  {b : Binding σ} {made : Except ResolveError (Invoker σ o.arity)}

/-! ## Over a binding -/

theorem over_make (hname : b.name = o.symbol) : Over o b (Invoker.make o.arity b) := by
  unfold Invoker.make
  split
  · next h => exact .fits h
  · next h =>
    rw [hname]
    exact .differs h

theorem Over.unique (h : Over o b made) {other : Except ResolveError (Invoker σ o.arity)}
    (k : Over o b other) : made = other := by
  cases h with
  | fits h =>
    cases k with
    | fits => rfl
    | differs hne => exact absurd h hne
  | differs hne =>
    cases k with
    | fits h => exact absurd h hne
    | differs => rfl

/-- An operation over an invoker's own binding. -/
theorem over_binding (invoker : Invoker σ o.arity) : Over o invoker.binding (.ok invoker) :=
  .fits invoker.arity_eq

/-- An operation comes to what its invoker comes to. -/
theorem construct_of_resolve {answer : Answer σ}
    (h : resolve resolver o.symbol o.signature.text s = (.returned answer, u)) :
    construct resolver o s = (.returned (answer.bind (Invoker.make o.arity)), u) := by
  simp only [construct, Act.andThen, h]

/-- **A resolver that takes notes makes the operation as the resolver does.** -/
theorem notes_construct (resolver : Resolver σ) (o : Operation) :
    Act.Notes (construct resolver o) (resolver.constructVisits o) (Except.map Invoker.noted)
      (construct resolver.noted o) := by
  refine (notes_resolve resolver o.symbol o.signature.text).map fun answer => ?_
  cases answer with
  | error error => rfl
  | ok b => exact Invoker.make_noted b

theorem unasked_of_get? (hb : s.table.get? o.symbol = some b) (resolver : Resolver σ) :
    Unasked resolver o s where
  visits := visits_of_get? hb _ _ _
  notes := by
    rw [(notes_construct resolver o).notes_eq]
    exact congrArg (List.filter Visit.isNoted) (visits_of_get? hb _ _ _)

/-- **A bound routine is not asked for again**, by whatever resolver. -/
theorem construct_of_over (hname : b.name = o.symbol) (hb : s.table.get? o.symbol = some b)
    (comes : Over o b made) (resolver : Resolver σ) :
    construct resolver o s = (.returned made, s.tell (b.conflict o.signature.text)) ∧
      Unasked resolver o s := by
  refine ⟨?_, unasked_of_get? hb resolver⟩
  rw [comes.unique (over_make hname)]
  exact construct_of_resolve (request_of_get? hb _ _)

/-! ## Over what the resolver answers -/

theorem cell_acquire_of_unbound (free : s.table.cellOf o.symbol ≠ .busy)
    (hname : s.table.get? o.symbol = none) :
    (s.table.acquire o.symbol).2.cell (s.table.acquire o.symbol).1 = .empty :=
  (cellOf_eq_cell_acquire _ _).symm.trans (Table.cellOf_of_unbound hname free)

/-- The first note is about the routine. -/
theorem notes_of_unbound (free : s.table.cellOf o.symbol ≠ .busy)
    (hname : s.table.get? o.symbol = none) (resolver : Resolver σ) :
    ∃ rest, (construct resolver.noted o).notes s = .asked o.symbol o.signature :: rest := by
  rw [(notes_construct resolver o).notes_eq, Resolver.constructVisits, Resolver.visits,
    visits_of_run (cell_acquire_of_unbound free hname) o.parse_text rfl,
    List.filter_cons_of_pos (by rfl)]
  exact ⟨_, rfl⟩

/-- **A routine that is not bound is asked for once**: its own resolver cannot ask for it. -/
theorem asked_of_unbound (hs : s.table.WellFormed) (free : s.table.cellOf o.symbol ≠ .busy)
    (hname : s.table.get? o.symbol = none) {result : Except ResolveError (Callable σ)}
    (run : (resolver o.symbol o.signature).run (s.begun o.symbol o.signature) =
      (.returned result, v)) : Asked resolver o s result v := by
  have hbusy : (s.begun o.symbol o.signature).table.cellOf o.symbol = .busy :=
    (hs.cellOf_opened _ _).trans (if_pos rfl)
  have hinner := (resolver o.symbol o.signature).name_ne_of_busy (hs.opened _) hbusy run (by simp)
  have hnone : ((resolver o.symbol o.signature).visits (s.begun o.symbol o.signature)).filter
      (fun v => v.name = o.symbol) = [] :=
    List.filter_eq_nil_iff.mpr fun v hv => by simpa using hinner v hv
  have honce : (resolver.constructVisits o s).filter (fun v => v.name = o.symbol) =
      [.asked o.symbol o.signature, .answered o.symbol (.returned (result.map fun _ => ()))] := by
    rw [Resolver.constructVisits, Resolver.visits,
      visits_of_run (cell_acquire_of_unbound free hname) o.parse_text run,
      List.filter_cons_of_pos (by simp [Visit.name]), List.filter_append, hnone]
    simp [Visit.name, Outcome.map]
  refine ⟨hname, run, honce, ?_⟩
  rw [(notes_construct resolver o).notes_eq, List.filter_comm, honce]
  rfl

/-- **What the resolver answers is what comes of it**: the kinds of a new binding are those of the
operation, so its arity is right. -/
theorem constructed_of_asked (hs : s.table.WellFormed)
    (free : s.table.cellOf o.symbol ≠ .busy) {result : Except ResolveError (Callable σ)}
    (asked : Asked resolver o s result v) :
    ∃ made u, construct resolver o s = (.returned made, u) ∧ Constructed resolver o s made u := by
  have hempty := Table.cellOf_of_unbound asked.unbound free
  cases result with
  | ok callable =>
    have hretries : Retries o.symbol o.signature.text (resolver o.symbol) s o.signature :=
      retries_of_empty hs hempty o.parse_text
    have hrequest : resolve resolver o.symbol o.signature.text s = _ :=
      request_of_run hempty o.parse_text asked.run
    obtain ⟨u, hsame, hbound⟩ := hretries.bound callable v asked.run
    cases hrequest.symm.trans hsame
    have hover : Over o (.make v.fresh o.symbol o.signature callable)
        (.ok ⟨.make v.fresh o.symbol o.signature callable, o.arity_signature⟩) := .fits _
    refine ⟨.ok ⟨.make v.fresh o.symbol o.signature callable, o.arity_signature⟩, _, ?_,
      .made asked rfl rfl hbound⟩
    rw [hover.unique (over_make rfl)]
    exact construct_of_resolve hrequest
  | error error =>
    have hrequest : resolve resolver o.symbol o.signature.text s = _ :=
      request_of_failed hempty o.parse_text asked.run
    obtain ⟨-, -, hemptied⟩ := fails_of_request hs asked.unbound hrequest (by simp) (by simp)
    refine ⟨.error error, _, construct_of_resolve hrequest, .refused asked rfl ?_⟩
    rw [Table.get?_eq_cellOf, hemptied]
    rfl

/-- **Every operation comes to something** if the resolver returns where it is asked. -/
theorem constructed_of_answers (alive : Alive names s) (free : o.symbol ∉ names)
    (answers : Answers resolver o s) :
    ∃ made u, construct resolver o s = (.returned made, u) ∧ Constructed resolver o s made u := by
  have attended := alive.attended
  cases hname : s.table.get? o.symbol with
  | some b =>
    have hown : b.name = o.symbol := (attended.made _ _ hname).name_eq
    have comes := over_make hown
    obtain ⟨hcall, hsilent⟩ := construct_of_over hown hname comes resolver
    exact ⟨_, _, hcall, .found hname comes hsilent⟩
  | none =>
    obtain ⟨result, v, run⟩ := answers hname
    have hfree : s.table.cellOf o.symbol ≠ .busy := fun hb => free (attended.busy _ hb)
    exact constructed_of_asked attended.wellFormed hfree
      (asked_of_unbound attended.wellFormed hfree hname run)

/-! ## The rest of the life -/

theorem Fixed.later (h : Fixed o s b made) (k : Later s u) : Fixed o u b made :=
  fun t ht => h t (.of_later k ht)

/-- **What an operation comes to over a binding is fixed**, since the binding is permanent. -/
theorem fixed_of_over (alive : Alive names s) (hb : s.table.get? o.symbol = some b)
    (comes : Over o b made) : Fixed o s b made :=
  fun _ ht resolver => construct_of_over (alive.attended.made _ _ hb).name_eq
    (ht.get? alive.attended.wellFormed hb) comes resolver

/-- **The result of making an operation lasts.** -/
theorem Constructed.lasting (alive : Alive names s) (free : o.symbol ∉ names)
    (call : construct resolver o s = (.returned made, u)) (h : Constructed resolver o s made u) :
    Lasting o s made u := by
  have live : Later s u := .of_construct call
  have halive : Alive names u := alive.step (.construct call (by simp))
  cases h with
  | found bound comes silent =>
    have hfixed := (fixed_of_over alive bound comes).later live
    refine ⟨?_, ?_, ?_⟩
    · rintro invoker rfl
      cases comes with
      | fits h => exact hfixed
    · rintro error b rfl hb
      cases bound.symm.trans hb
      cases comes with
      | differs h => exact ⟨rfl, hfixed⟩
    · intro error _ hnone
      rw [bound] at hnone
      cases hnone
  | made asked binding left bound =>
    refine ⟨?_, fun _ _ hmade => (by cases hmade), fun _ hmade => (by cases hmade)⟩
    rintro invoker ⟨⟩
    exact fixed_of_over halive bound (over_binding _)
  | refused asked left unbound =>
    refine ⟨fun _ hmade => (by cases hmade), ?_, ?_⟩
    · intro error b _ hb
      rw [asked.unbound] at hb
      cases hb
    · intro error _ _
      refine ⟨unbound, fun t ht hnone resolver => ?_⟩
      obtain ⟨htakes, hbusy⟩ := ht.takes halive.attended.wellFormed
      have hfree : t.table.cellOf o.symbol ≠ .busy :=
        fun hb => free (halive.attended.busy _ (hbusy _ hb))
      refine ⟨notes_of_unbound hfree hnone resolver, fun answers => ?_⟩
      obtain ⟨result, w, run⟩ := answers hnone
      have hwf := htakes.wellFormed halive.attended.wellFormed
      exact constructed_of_asked hwf hfree (asked_of_unbound hwf hfree hnone run)

end

/-- **Making an operation** at a moment in the life of a context at which its routine is not being
resolved: it answers from the binding of the routine without asking any resolver, or else asks the
resolver once and answers as that does; and what it answers decides about the rest of the life, as
`Lasting` says. -/
theorem construct_lasting {names : List String} {s : Session σ} (alive : Alive names s)
    {resolver : Resolver σ} {o : Operation} (free : o.symbol ∉ names)
    (answers : Answers resolver o s) :
    ∃ made u, construct resolver o s = (.returned made, u) ∧
      Constructed resolver o s made u ∧ Lasting o s made u := by
  obtain ⟨made, u, call, constructed⟩ := constructed_of_answers alive free answers
  exact ⟨made, u, call, constructed, constructed.lasting alive free call⟩

/-! ## A resolver that changes its mind -/

/-- Refuses the first name it is asked for, and nothing after that. -/
def fickle : Resolver Bool := fun name _ =>
  .step (fun _ => true) fun asked =>
    .answer (if asked then .ok fun _ world => (.returned (.ok .void), [], world)
      else .error (.symbolNotFound name))

theorem fickle_answers (o : Operation) (s : Session Bool) : Answers fickle o s :=
  fun _ => ⟨_, _, rfl⟩

/-- The routine of the cast was bound by hand with one argument, on the second attempt, and now the
resolver of another name is at work. -/
def castByHand : Session Bool :=
  (resolve fickle "@__dynamic_cast" "(POINTER):POINTER"
    (resolve fickle "@__dynamic_cast" "(POINTER):POINTER" (.start false)).2).2.begun "@wrapper"
      ⟨[.pointer], .void⟩

theorem alive_castByHand : Alive ["@wrapper"] castByHand := by
  have hfirst : (resolve fickle "@__dynamic_cast" "(POINTER):POINTER" (.start false)).1.map
      Except.isOk = .returned false := by decide +kernel
  have hsecond : (resolve fickle "@__dynamic_cast" "(POINTER):POINTER"
      (resolve fickle "@__dynamic_cast" "(POINTER):POINTER" (.start false)).2).1.map
      Except.isOk = .returned true := by decide +kernel
  have hbound := ((Alive.start false).of_resolve hfirst).of_resolve hsecond
  exact hbound.enter (by rfl) (by rfl : Signature.parse "(POINTER):VOID" = _)

/-- In a new context the release is refused once by the resolver, and may be asked for again; in a
context where the cast was bound by hand the cast is refused for ever. -/
theorem construct_lasting_fickle :
    (∃ made u, construct fickle .freeException (.start false) = (.returned made, u) ∧
      made.map (fun _ => ()) = .error (.symbolNotFound "@__cxa_free_exception") ∧
      Constructed fickle .freeException (.start false) made u ∧
        Lasting .freeException (.start false) made u) ∧
    ∃ made u, construct fickle .dynamicCast castByHand = (.returned made, u) ∧
      made.map (fun _ => ()) = .error (.arityMismatch "@__dynamic_cast" 1 4) ∧
      Constructed fickle .dynamicCast castByHand made u ∧ Lasting .dynamicCast castByHand made u := by
  have hrelease : (construct fickle .freeException (.start false)).1.map
      (fun made => made.map fun _ => ()) =
        .returned (.error (.symbolNotFound "@__cxa_free_exception")) := by decide +kernel
  have hcast : (construct fickle .dynamicCast castByHand).1.map
      (fun made => made.map fun _ => ()) =
        .returned (.error (.arityMismatch "@__dynamic_cast" 1 4)) := by decide +kernel
  obtain ⟨made, u, call, hmade⟩ := construct_lasting (.start false) (o := .freeException)
    List.not_mem_nil (fickle_answers .freeException _)
  obtain ⟨other, v, called, hother⟩ := construct_lasting alive_castByHand (o := .dynamicCast)
    (by decide) (fickle_answers .dynamicCast _)
  rw [call] at hrelease
  rw [called] at hcast
  exact ⟨⟨made, u, call, Outcome.returned.inj hrelease, hmade⟩,
    other, v, called, Outcome.returned.inj hcast, hother⟩

end Session

end NativeLink
