import NativeLink.Proofs.Context.Constructor

/-!
# What a probe says about later

A probe makes the three operations, each in its turn, whatever came of those before it.
`Session.turn` names the session in which it comes to an operation.  It reports what the
constructors answer there and leaves what they leave, with a warning for each failure at the
end; `Session.Reported` puts that down.

A report is read long after the probe.  `Session.Foretold` says how far it may be trusted: an
operation that was reported available is at hand for ever, without a resolver; one that was
barred by a binding with another arity is barred for ever, whether the binding was there
before the probe or was made while the probe went on; and another probe asks the resolvers
only for names that are not bound.  Nothing is said about an operation that a resolver has
refused, which may be bound at any time.
-/

namespace NativeLink

variable {σ : Type}

/-- The warning that goes with what came of binding a routine. -/
def Operation.warning (o : Operation) : Except ResolveError Unit → List Event
  | .ok _ => []
  | .error error => [.unavailable o.feature error]

namespace Support

/-- The report on what came of the operations. -/
def ofMade (made : ∀ o : Operation, Except ResolveError (Invoker σ o.arity)) : Support :=
  ⟨(made .nullPointer).map fun _ => (), (made .dynamicCast).map fun _ => (),
    (made .freeException).map fun _ => ()⟩

theorem result_ofMade (made : ∀ o : Operation, Except ResolveError (Invoker σ o.arity))
    (o : Operation) : (ofMade made).result o = (made o).map fun _ => () := by
  cases o <;> rfl

theorem warnings_eq (support : Support) :
    support.warnings = Operation.inTurn.flatMap fun o =>
      o.warning (support.result o) := by
  obtain ⟨nullPointer | _, dynamicCast | _, freeException | _⟩ := support <;> rfl

theorem level_of_warnings {support : Support} {event : Event} (h : event ∈ support.warnings) :
    event.level = .warn := by
  obtain ⟨⟨o, error⟩, -, rfl⟩ := List.mem_map.mp h
  rfl

theorem has_iff {support : Support} {o : Operation} :
    support.has o = true ↔ support.result o = .ok () := by
  unfold has
  cases support.result o with
  | ok => simp [Except.isOk, Except.toBool]
  | error => simp [Except.isOk, Except.toBool]

theorem isComplete_iff {support : Support} :
    support.isComplete = true ↔ ∀ o, support.has o = true := by
  rw [isComplete, unavailable, List.isEmpty_iff, List.filterMap_eq_nil_iff]
  constructor
  · intro h o
    have ho := h o (by cases o <;> simp)
    rw [has_iff]
    split at ho
    · next hok => exact hok
    · cases ho
  · intro h o _
    rw [has_iff.mp (h o)]

end Support

namespace Session

section

variable (resolver : Resolver σ) (s : Session σ) (support : Support) (u : Session σ)

/-- What a probe reports and leaves is what the three constructors answer and leave in their
turns. -/
structure Reported : Prop where
  results : ∀ o, ∃ made v, construct resolver o (turn resolver s o) = (.returned made, v) ∧
    Constructed resolver o (turn resolver s o) made v ∧
      support.result o = made.map fun _ => ()
  visits : resolver.probeVisits s =
    Operation.inTurn.flatMap fun o =>
      resolver.constructVisits o (turn resolver s o)
  /-- What the resolver notes is what it notes in each turn. -/
  notes : (probe resolver.noted).notes s =
    Operation.inTurn.flatMap fun o =>
      (construct resolver.noted o).notes (turn resolver s o)
  /-- Only the warnings are added to what the constructors leave, behind all their events. -/
  leaves : u = (construct resolver .freeException (turn resolver s .freeException)).2.tell
    support.warnings
  /-- There is one for each failure, in the order of the turns. -/
  warnings : support.warnings =
    Operation.inTurn.flatMap fun o =>
      o.warning (support.result o)
  level : ∀ event ∈ support.warnings, event.level = .warn
  has : ∀ o, support.has o = true ↔ support.result o = .ok ()
  isComplete : support.isComplete = true ↔ ∀ o, support.result o = .ok ()

/-- What a report says about the life of the context after the probe. -/
structure Foretold : Prop where
  /-- What was reported available is made, without a resolver and over the same binding. -/
  available : ∀ o, support.has o = true → ∃ invoker, Fixed o u invoker.binding (.ok invoker)
  /-- What was reported missing although its routine was bound is refused in the same words. -/
  barred : ∀ o error b, support.result o = .error error →
    (turn resolver s o).table.get? o.symbol = some b →
      error = .arityMismatch o.symbol b.arity o.arity ∧ Fixed o u b (.error error)
  /-- So is what has been bound with another arity by the end of the probe. -/
  overtaken : ∀ o b, u.table.get? o.symbol = some b → b.arity ≠ o.arity →
    Fixed o u b (.error (.arityMismatch o.symbol b.arity o.arity))
  /-- Another probe asks only for names that are not bound. -/
  again : ∀ t, Later u t → ∀ (resolver : Resolver σ) outcome v,
    probe resolver t = (outcome, v) → outcome ≠ .stuck →
      ∀ visit ∈ resolver.probeVisits t, ∀ name, visit.asks name = true → t.table.get? name = none
  /-- So a resolver notes no question about a name that is bound. -/
  noted : ∀ t, Later u t → ∀ (resolver : Resolver σ) outcome v,
    probe resolver t = (outcome, v) → outcome ≠ .stuck →
      ∀ visit ∈ (probe resolver.noted).notes t, ∀ name, visit.asks name = true →
        t.table.get? name = none

end

section

variable {names : List String} {resolver : Resolver σ} {o : Operation} {s u : Session σ}
  {made : Except ResolveError (Invoker σ o.arity)}

theorem table_tell (s : Session σ) (events : List Event) : (s.tell events).table = s.table := rfl

theorem attempt_of_construct (call : construct resolver o s = (.returned made, u)) :
    attempt resolver o s = (.returned (made.map fun _ => ()), u) := by
  simp only [attempt, Act.andThen, call]

theorem notes_attempt (resolver : Resolver σ) (o : Operation) :
    Act.Notes (attempt resolver o) (resolver.constructVisits o) id (attempt resolver.noted o) :=
  (notes_construct resolver o).map fun made => by cases made <;> rfl

/-- **A resolver that takes notes is probed as the resolver is.** -/
theorem notes_probe (resolver : Resolver σ) :
    Act.Notes (probe resolver) resolver.probeVisits id (probe resolver.noted) := by
  refine (notes_attempt resolver .nullPointer).andThen fun nullPointer =>
    (notes_attempt resolver .dynamicCast).andThen fun dynamicCast => ?_
  have hlast : ∀ freeException, Act.Notes (fun s : Session σ =>
      let support := Support.mk nullPointer dynamicCast freeException
      (.returned support, s.tell support.warnings)) (fun _ => []) id fun s =>
        let support := Support.mk nullPointer dynamicCast freeException
        (.returned support, s.tell support.warnings) := by
    intro freeException s notes
    simp only [List.filter_nil, List.append_nil]
    rfl
  refine ((notes_attempt resolver .freeException).andThen hlast).congr fun s => ?_
  unfold Act.visitsThen
  split <;> rw [List.append_nil]

/-- **Each operation has its turn**, whatever came of those before it. -/
theorem alive_turn (alive : Alive names s) (free : ∀ o : Operation, o.symbol ∉ names)
    (answers : ∀ o, Answers resolver o (turn resolver s o)) :
    ∀ o, Alive names (turn resolver s o) ∧
      Later (turn resolver s o) (construct resolver o (turn resolver s o)).2 := by
  have hnext : ∀ {o}, Alive names (turn resolver s o) →
      Alive names (construct resolver o (turn resolver s o)).2 ∧
        Later (turn resolver s o) (construct resolver o (turn resolver s o)).2 := by
    intro o ho
    obtain ⟨made, u, call, -⟩ := constructed_of_answers ho (free o) (answers o)
    rw [call]
    exact ⟨ho.step (.construct call (by simp)), .of_construct call⟩
  have hfirst : Alive names (turn resolver s .nullPointer) := alive
  have hsecond : Alive names (turn resolver s .dynamicCast) := (hnext hfirst).1
  have hthird : Alive names (turn resolver s .freeException) := (hnext hsecond).1
  intro o
  cases o with
  | nullPointer => exact ⟨hfirst, (hnext hfirst).2⟩
  | dynamicCast => exact ⟨hsecond, (hnext hsecond).2⟩
  | freeException => exact ⟨hthird, (hnext hthird).2⟩

/-- The end of a probe comes after every turn. -/
theorem later_of_turn
    (turns : ∀ o, Later (turn resolver s o) (construct resolver o (turn resolver s o)).2) :
    ∀ o, Later (construct resolver o (turn resolver s o)).2
      (construct resolver .freeException (turn resolver s .freeException)).2 := by
  have hthird := turns .freeException
  have hsecond : Later (turn resolver s .dynamicCast) (turn resolver s .freeException) :=
    turns .dynamicCast
  intro o
  cases o with
  | nullPointer => exact hsecond.trans hthird
  | dynamicCast => exact hthird
  | freeException => exact .refl _

/-- A probe whose constructors all return. -/
theorem probe_of_turns {made : ∀ o : Operation, Except ResolveError (Invoker σ o.arity)}
    (call : ∀ o, construct resolver o (turn resolver s o) =
      (.returned (made o), (construct resolver o (turn resolver s o)).2)) :
    probe resolver s = (.returned (.ofMade made),
        (construct resolver .freeException (turn resolver s .freeException)).2.tell
          (Support.ofMade made).warnings) ∧
      resolver.probeVisits s =
        Operation.inTurn.flatMap fun o =>
          resolver.constructVisits o (turn resolver s o) := by
  have first : attempt resolver .nullPointer s = (.returned _, turn resolver s .dynamicCast) :=
    attempt_of_construct (call .nullPointer)
  have second : attempt resolver .dynamicCast (turn resolver s .dynamicCast) =
      (.returned _, turn resolver s .freeException) := attempt_of_construct (call .dynamicCast)
  have third := attempt_of_construct (call .freeException)
  constructor
  · simp only [probe, Act.andThen, first, second, third]
    rfl
  · simp only [Resolver.probeVisits, Act.visitsThen, first, second, Operation.inTurn,
      List.flatMap_cons, List.flatMap_nil, List.append_nil]
    rfl

/-- **A probe reports what the constructors answer.** -/
theorem reported_of_answers (alive : Alive names s) (free : ∀ o : Operation, o.symbol ∉ names)
    (answers : ∀ o, Answers resolver o (turn resolver s o)) :
    ∃ support u, probe resolver s = (.returned support, u) ∧ Reported resolver s support u := by
  have hmade : ∀ o, ∃ made, construct resolver o (turn resolver s o) =
        (.returned made, (construct resolver o (turn resolver s o)).2) ∧
      Constructed resolver o (turn resolver s o) made
        (construct resolver o (turn resolver s o)).2 := by
    intro o
    obtain ⟨made, v, call, constructed⟩ :=
      constructed_of_answers (alive_turn alive free answers o).1 (free o) (answers o)
    rw [call]
    exact ⟨made, rfl, constructed⟩
  choose made call constructed using hmade
  obtain ⟨hprobe, hvisits⟩ := probe_of_turns call
  have hnotes : (probe resolver.noted).notes s =
      Operation.inTurn.flatMap fun o =>
        (construct resolver.noted o).notes (turn resolver s o) := by
    rw [(notes_probe resolver).notes_eq, hvisits, List.filter_flatMap]
    exact List.flatMap_congr fun o _ => ((notes_construct resolver o).notes_eq _).symm
  refine ⟨.ofMade made, _, hprobe, fun o => ?_, hvisits, hnotes, rfl, Support.warnings_eq _,
    fun _ => Support.level_of_warnings, fun _ => Support.has_iff, ?_⟩
  · exact ⟨made o, _, call o, constructed o, Support.result_ofMade made o⟩
  · simp only [Support.isComplete_iff, Support.has_iff]

/-- **What was reported holds later.** -/
theorem Reported.foretold {support : Support} (alive : Alive names s)
    (free : ∀ o : Operation, o.symbol ∉ names)
    (answers : ∀ o, Answers resolver o (turn resolver s o))
    (reported : Reported resolver s support u) : Foretold resolver s support u := by
  have turns := alive_turn alive free answers
  have hend : ∀ {o made v}, construct resolver o (turn resolver s o) = (.returned made, v) →
      Later v u := by
    intro o made v call
    have hlater := later_of_turn (fun o => (turns o).2) o
    rw [call] at hlater
    rw [reported.leaves]
    exact hlater.step (.elsewhere (table_tell _ _))
  have halive : Alive names u := by
    obtain ⟨made, v, call, -⟩ := reported.results .freeException
    have hlast := (turns .freeException).1.step (.construct call (by simp))
    rw [reported.leaves, call]
    exact hlast.step (.elsewhere (table_tell _ _))
  have hagain : ∀ t, Later u t → ∀ (resolver : Resolver σ) outcome v,
      probe resolver t = (outcome, v) → outcome ≠ .stuck →
        ∀ visit ∈ resolver.probeVisits t, ∀ name, visit.asks name = true →
          t.table.get? name = none := by
    intro t ht resolver outcome v call ended visit hvisit name hasks
    have hwf := (ht.takes halive.attended.wellFormed).1.wellFormed halive.attended.wellFormed
    have hcourse := (probe_takes resolver hwf call ended).2
    by_contra hbound
    have hcontains : t.table.contains name = true := Option.isSome_iff_ne_none.mpr hbound
    rw [hcourse.ledger.settled name hcontains visit hvisit] at hasks
    cases hasks
  refine ⟨?_, ?_, ?_, hagain, ?_⟩
  · intro o ho
    obtain ⟨made, v, call, constructed, hresult⟩ := reported.results o
    rw [Support.has_iff.mp ho] at hresult
    cases made with
    | error error => cases hresult
    | ok invoker =>
      have lasting := constructed.lasting (turns o).1 (free o) call
      exact ⟨invoker, (lasting.kept invoker rfl).later (hend call)⟩
  · intro o error b herror hb
    obtain ⟨made, v, call, constructed, hresult⟩ := reported.results o
    rw [herror] at hresult
    cases made with
    | ok invoker => cases hresult
    | error other =>
      cases hresult
      have lasting := constructed.lasting (turns o).1 (free o) call
      exact (lasting.barred error b rfl hb).imp_right (·.later (hend call))
  · exact fun o b hb hne => fixed_of_over halive hb (.differs hne)
  · intro t ht resolver outcome v call ended visit hvisit
    rw [(notes_probe resolver).notes_eq] at hvisit
    exact hagain t ht resolver outcome v call ended visit (List.mem_of_mem_filter hvisit)

end

/-- **The startup probe**, at a moment in the life of a context at which none of the three routines
is being resolved: it reports and leaves what the constructors would in its place, with a warning
for each that failed, and what it reports can be relied on afterwards as `Foretold` says. -/
theorem probe_foretells {names : List String} {s : Session σ} (alive : Alive names s)
    (free : ∀ o : Operation, o.symbol ∉ names) {resolver : Resolver σ}
    (answers : ∀ o, Answers resolver o (turn resolver s o)) :
    ∃ support u, probe resolver s = (.returned support, u) ∧
      Reported resolver s support u ∧ Foretold resolver s support u := by
  obtain ⟨support, u, call, reported⟩ := reported_of_answers alive free answers
  exact ⟨support, u, call, reported, reported.foretold alive free answers⟩

/-! ## A report with all that may be in it -/

/-- Finds no null pointer, but binds the release while it looks for it. -/
def roundabout : Resolver Unit := fun name _ =>
  if name = "@getNullPointer" then
    .request "@__cxa_free_exception" "(POINTER):VOID"
      (fun _ => .answer (.ok fun _ world => (.returned (.ok .void), [], world)))
      fun _ => .answer (.error (.symbolNotFound name))
  else .answer (.ok fun _ world => (.returned (.ok .void), [], world))

/-- A context in which the routine of the cast was bound by hand with one argument. -/
def narrowCast : Session Unit :=
  (resolve roundabout "@__dynamic_cast" "(POINTER):POINTER" (.start ())).2

theorem alive_narrowCast : Alive [] narrowCast := by
  have hbound : (resolve roundabout "@__dynamic_cast" "(POINTER):POINTER" (.start ())).1.map
      Except.isOk = .returned true := by decide +kernel
  exact (Alive.start ()).of_resolve hbound

theorem roundabout_answers (o : Operation) :
    Answers roundabout o (turn roundabout narrowCast o) := by
  intro _
  cases o with
  | dynamicCast => exact ⟨_, _, rfl⟩
  | freeException => exact ⟨_, _, rfl⟩
  | nullPointer =>
    have hreturned : ((roundabout "@getNullPointer" Operation.nullPointer.signature).run
        (narrowCast.begun "@getNullPointer" Operation.nullPointer.signature)).1.map
        Except.isOk = .returned false := by decide +kernel
    rcases hrun : (roundabout "@getNullPointer" Operation.nullPointer.signature).run
      (narrowCast.begun "@getNullPointer" Operation.nullPointer.signature)
      with ⟨result | cause | _, v⟩
    · exact ⟨result, v, hrun⟩
    · rw [hrun] at hreturned
      cases hreturned
    · rw [hrun] at hreturned
      cases hreturned

/-- One routine is refused by the resolver, one is barred, and one is at hand. -/
theorem probe_foretells_roundabout :
    ∃ support u, probe roundabout narrowCast = (.returned support, u) ∧
      support.result .nullPointer = .error (.symbolNotFound "@getNullPointer") ∧
      support.result .dynamicCast = .error (.arityMismatch "@__dynamic_cast" 1 4) ∧
      support.result .freeException = .ok () ∧
      Reported roundabout narrowCast support u ∧ Foretold roundabout narrowCast support u := by
  have hresults : (probe roundabout narrowCast).1.map (fun support =>
      (support.result .nullPointer, support.result .dynamicCast, support.result .freeException)) =
        .returned (.error (.symbolNotFound "@getNullPointer"),
          .error (.arityMismatch "@__dynamic_cast" 1 4), .ok ()) := by decide +kernel
  obtain ⟨support, u, call, hreport⟩ := probe_foretells alive_narrowCast
    (fun _ => List.not_mem_nil) roundabout_answers
  rw [call] at hresults
  obtain ⟨hfirst, hrest⟩ := Prod.mk.inj (Outcome.returned.inj hresults)
  obtain ⟨hsecond, hthird⟩ := Prod.mk.inj hrest
  exact ⟨support, u, call, hfirst, hsecond, hthird, hreport⟩

end Session

end NativeLink
