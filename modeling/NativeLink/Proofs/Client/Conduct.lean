import NativeLink.Crossing
import NativeLink.Proofs.Client.Isolation

/-!
# The conduct of calls

Every call through an invoker or an operation goes the same way, whatever the callable behind it
does.  It is told of, the callable is called once with the arguments as they were given, and then
the reply is judged (`Judged`).

* A value is passed on by an invoker and by the operation that fetches the null pointer, of whatever
  kind it is.  The release of an object drops it.  A cast takes the address out of a pointer, and
  finds a defect in anything else.
* A refusal is a defect, under the name of the binding and with the refusal as its cause.
* A panic is none of the border's business and passes through.

A defect is told once and then ends the call: it is never a result.  So a crossing tells of itself
before the callable tells anything, and tells a defect after that or nothing more.  `Conduct` puts
all of this together.

Calls through several invokers, operations and copies of them form a single course (`Course`): each
call finds the world as the one before it has left it, also after a defect or a panic.  That there
is one call each, and that its arguments are those of the crossing, is noted by the callables
themselves (`makeAll_watched`).
-/

namespace NativeLink

variable {σ : Type}

namespace Crossing

/-- What a value comes to in the form of the crossing. -/
inductive Reads : Crossing σ → Value → Result → Prop where
  | invoke {n : Nat} {invoker : Invoker σ n} {args : Vector Value n} {value : Value} :
    Reads (.invoke invoker args) value (.value value)
  | nullPointer {invoker : Invoker σ 0} {value : Value} :
    Reads (.nullPointer invoker) value (.value value)
  | cast {invoker : Invoker σ 4} {object source target : Address} {hint : UInt64}
    {address : Address} :
    Reads (.cast invoker object source target hint) (.pointer address) (.address address)
  | free {invoker : Invoker σ 1} {address : Address} {value : Value} :
    Reads (.free invoker address) value .done

/-- What becomes of the reply of a callable, and the defect that is found in it. -/
inductive Judged : Crossing σ → Reply → Outcome Result → Option Defect → Prop where
  | read {x : Crossing σ} {value : Value} {result : Result} (reads : x.Reads value result) :
    Judged x (.returned (.ok value)) (.returned result) none
  | misshapen {invoker : Invoker σ 4} {object source target : Address} {hint : UInt64}
    {value : Value} (kind : value.kind ≠ .pointer) :
    Judged (.cast invoker object source target hint) (.returned (.ok value))
      (.panicked (.defect (.resultShape invoker.binding.name ⟨value.kind⟩)))
      (some (.resultShape invoker.binding.name ⟨value.kind⟩))
  | refused {x : Crossing σ} {error : TransportError} :
    Judged x (.returned (.error error)) (.panicked (.defect (.transport x.binding.name error)))
      (some (.transport x.binding.name error))
  | panicked {x : Crossing σ} {cause : Panic} : Judged x (.panicked cause) (.panicked cause) none
  | stuck {x : Crossing σ} : Judged x .stuck .stuck none

/-- A callable that replies in some way leaves nothing open. -/
theorem Judged.unique {x : Crossing σ} {reply : Reply} {outcome other : Outcome Result}
    {defect another : Option Defect} (h : Judged x reply outcome defect)
    (hother : Judged x reply other another) : outcome = other ∧ defect = another := by
  cases h with
  | read reads =>
    cases hother with
    | read same => cases reads <;> cases same <;> exact ⟨rfl, rfl⟩
    | misshapen kind =>
      cases reads
      exact absurd rfl kind
  | misshapen kind =>
    cases hother with
    | read reads =>
      cases reads
      exact absurd rfl kind
    | misshapen => exact ⟨rfl, rfl⟩
  | refused | panicked | stuck =>
    cases hother
    exact ⟨rfl, rfl⟩

/-- A defect is that of the binding, and ends the call. -/
theorem Judged.raised {x : Crossing σ} {reply : Reply} {outcome : Outcome Result} {d : Defect}
    (h : Judged x reply outcome (some d)) :
    outcome = .panicked (.defect d) ∧ d.symbol = x.binding.name := by
  cases h <;> exact ⟨rfl, rfl⟩

/-- What a crossing tells, from what its callable has told and the defect that is found. -/
def told (x : Crossing σ) (events : List Event) (defect : Option Defect) : List Event :=
  .nativeCall x.binding.name x.args :: (events ++ (defect.map Event.defect).toList)

/-! ## One crossing -/

section

variable {world left : σ} {reply : Reply} {events : List Event}

theorem told_none (x : Crossing σ) (events : List Event) :
    x.told events none = .nativeCall x.binding.name x.args :: events := by
  rw [told, Option.map_none, Option.toList_none, List.append_nil]

/-- An invoker, and an operation that takes any value, judges the reply like this. -/
theorem judged_of_valueOf {x : Crossing σ} {f : Value → Result} (reply : Reply)
    (events : List Event) (reads : ∀ value, x.Reads value (f value)) : ∃ defect,
      Judged x reply ((Invoker.valueOf x.binding.name reply).map f) defect ∧
        Invoker.told x.binding.name x.args events reply = x.told events defect := by
  rcases reply with (refusal | value) | cause | _
  · exact ⟨_, .refused, rfl⟩
  · exact ⟨none, .read (reads value), (x.told_none events).symm⟩
  · exact ⟨none, .panicked, (x.told_none events).symm⟩
  · exact ⟨none, .stuck, (x.told_none events).symm⟩

/-- A cast looks at the kind of the value. -/
theorem judged_of_addressOf (invoker : Invoker σ 4) (object source target : Address) (hint : UInt64)
    (reply : Reply) (events : List Event) : ∃ defect,
      Judged (.cast invoker object source target hint) reply
          ((Invoker.addressOf invoker.symbol reply).map .address) defect ∧
        Invoker.castTold invoker.symbol
            [.pointer object, .pointer source, .pointer target, .uint64 hint] events reply =
          (cast invoker object source target hint).told events defect := by
  have hquiet := told_none (.cast invoker object source target hint) events
  rcases reply with (refusal | value) | cause | _
  · exact ⟨_, .refused, rfl⟩
  · simp only [Invoker.addressOf, Invoker.castTold, Invoker.valueOf]
    by_cases hkind : value.kind = .pointer
    · cases value with
      | pointer address => exact ⟨none, .read .cast, hquiet.symm⟩
      | _ => cases hkind
    · simp only [Value.asPointer_of_ne hkind]
      exact ⟨_, .misshapen hkind, rfl⟩
  · exact ⟨none, .panicked, hquiet.symm⟩
  · exact ⟨none, .stuck, hquiet.symm⟩

/-- **A crossing calls its callable once and judges the reply.** -/
theorem make_eq {x : Crossing σ} (h : x.binding.callable x.args world = (reply, events, left)) :
    ∃ outcome defect, x.Judged reply outcome defect ∧
      x.make world = (outcome, x.told events defect, left) := by
  cases x with
  | invoke invoker args =>
    obtain ⟨defect, judged, htold⟩ := judged_of_valueOf (x := .invoke invoker args) reply events
      fun _ => .invoke
    exact ⟨_, defect, judged, htold ▸ Reaction.map_eq (Invoker.invoke_eq args h)⟩
  | nullPointer invoker =>
    obtain ⟨defect, judged, htold⟩ := judged_of_valueOf (x := .nullPointer invoker) reply events
      fun _ => .nullPointer
    exact ⟨_, defect, judged, htold ▸ Reaction.map_eq (Invoker.invoke_eq (n := 0) #v[] h)⟩
  | cast invoker object source target hint =>
    obtain ⟨defect, judged, htold⟩ :=
      judged_of_addressOf invoker object source target hint reply events
    exact ⟨_, defect, judged, htold ▸ Reaction.map_eq (Invoker.cast_eq invoker h)⟩
  | free invoker address =>
    obtain ⟨defect, judged, htold⟩ := judged_of_valueOf (x := .free invoker address) reply events
      fun _ => .free
    refine ⟨_, defect, judged, ?_⟩
    have hinvoke := Invoker.invoke_eq (n := 1) #v[.pointer address] h
    simp only [make, Reaction.map, Invoker.free, hinvoke, Outcome.map_map]
    rw [← htold]
    rfl

end

end Crossing

/-! ## One call for each crossing -/

section

variable (world : σ) (journal : Journal)

theorem Invoker.callable_watched {n : Nat} (invoker : Invoker σ n) (args : List Value) :
    invoker.watched.binding.callable args (world, journal) =
      ((invoker.binding.callable args world).1, (invoker.binding.callable args world).2.1,
        (invoker.binding.callable args world).2.2, journal ++ [(invoker.binding.id, args)]) :=
  rfl

theorem Invoker.invoke_watched {n : Nat} (invoker : Invoker σ n) (args : Vector Value n) :
    invoker.watched.invoke args (world, journal) =
      ((invoker.invoke args world).1, (invoker.invoke args world).2.1,
        (invoker.invoke args world).2.2, journal ++ [(invoker.binding.id, args.toList)]) := by
  have hwatched := invoker.callable_watched world journal args.toList
  rcases hcall : invoker.binding.callable args.toList world with ⟨reply, events, left⟩
  rw [hcall] at hwatched
  rw [invoke_eq args hcall, invoke_eq args hwatched]
  rfl

namespace Crossing

/-- **A crossing makes one call**, with its arguments as they are, and being watched changes nothing
else. -/
theorem make_watched (x : Crossing σ) : x.watched.make (world, journal) =
    ((x.make world).1, (x.make world).2.1, (x.make world).2.2,
      journal ++ [(x.binding.id, x.args)]) := by
  cases x with
  | invoke invoker args =>
    simp only [watched, make, Reaction.map, Invoker.invoke_watched]
    rfl
  | nullPointer invoker =>
    simp only [watched, make, Reaction.map, Invoker.nullPointer, Invoker.invoke_watched]
    rfl
  | free invoker address =>
    simp only [watched, make, Reaction.map, Invoker.free, Invoker.invoke_watched]
    rfl
  | cast invoker object source target hint =>
    have hwatched := invoker.callable_watched world journal
      [.pointer object, .pointer source, .pointer target, .uint64 hint]
    rcases hcall : invoker.binding.callable
      [.pointer object, .pointer source, .pointer target, .uint64 hint] world with
      ⟨reply, events, left⟩
    rw [hcall] at hwatched
    simp only [watched, make, Reaction.map, Invoker.cast_eq invoker hcall,
      Invoker.cast_eq invoker.watched hwatched]
    rfl

/-- **A list of crossings makes one call for each**, in order. -/
theorem makeAll_watched (xs : List (Crossing σ)) :
    makeAll (xs.map watched) (world, journal) =
      ((makeAll xs world).1, (makeAll xs world).2.1, (makeAll xs world).2.2,
        journal ++ xs.map fun x => (x.binding.id, x.args)) := by
  induction xs generalizing world journal with
  | nil => exact congrArg (([], [], world, ·)) (List.append_nil journal).symm
  | cons x rest ih =>
    simp only [List.map_cons, makeAll, make_watched, ih]
    rw [List.append_assoc, List.singleton_append]

/-! ## The course of several crossings -/

/-- What comes of crossings that are made one after the other: the outcomes, what is told, and the
world that is left. -/
inductive Course : List (Crossing σ) → σ → List (Outcome Result) → List Event → σ → Prop where
  | nil (world : σ) : Course [] world [] [] world
  | cons {x : Crossing σ} {rest : List (Crossing σ)} {world next left : σ} {reply : Reply}
    {events later : List Event} {outcome : Outcome Result} {outcomes : List (Outcome Result)}
    {defect : Option Defect}
    (call : x.binding.callable x.args world = (reply, events, next))
    (judged : x.Judged reply outcome defect) (course : Course rest next outcomes later left) :
    Course (x :: rest) world (outcome :: outcomes) (x.told events defect ++ later) left

theorem course_makeAll (xs : List (Crossing σ)) :
    Course xs world (makeAll xs world).1 (makeAll xs world).2.1 (makeAll xs world).2.2 := by
  induction xs generalizing world with
  | nil => exact .nil world
  | cons x rest ih =>
    rcases hcall : x.binding.callable x.args world with ⟨reply, events, next⟩
    obtain ⟨outcome, defect, judged, hmake⟩ := make_eq hcall
    simp only [makeAll, hmake]
    exact .cons hcall judged (ih next)

end Crossing

end

/-! ## Clients that use what they have -/

theorem Made.run_eq_make (m : Made σ) (numbers : List UInt64) (world : σ) :
    m.run numbers world = (m.crossing numbers).make world := by
  obtain ⟨o, invoker⟩ := m
  cases o <;> rfl

namespace Client

variable {c : Client σ} {command : Command σ} {x : Crossing σ}

/-- The crossings of a history, in order. -/
def crossings : Client σ → List (Command σ) → List (Crossing σ) :=
  along fun c command => (c.crossing? command).toList

theorem crossings_cons (c : Client σ) (command : Command σ) (rest : List (Command σ)) :
    c.crossings (command :: rest) =
      (c.crossing? command).toList ++ (c.obey command).2.crossings rest :=
  rfl

/-- **A command that makes a crossing does nothing else.** -/
theorem obey_of_crossing (h : c.crossing? command = some x) :
    c.obey command = ((x.make c.contexts.world).1.response x.respond,
      c.called (x.make c.contexts.world).2.2 (x.make c.contexts.world).2.1) := by
  cases command with
  | run operation numbers =>
    obtain ⟨m, hm, rfl⟩ := Option.map_eq_some_iff.mp h
    have hrespond : (m.crossing numbers).respond = .result := by
      obtain ⟨o, invoker⟩ := m
      cases o <;> rfl
    simp only [obey, hm, hrespond]
    exact after_perform (m.run_eq_make numbers c.contexts.world) _
  | invoke binding n args =>
    obtain ⟨b, hb, hcrossing⟩ := Option.bind_eq_some_iff.mp h
    split at hcrossing
    · next hcount =>
      cases hcrossing
      obtain ⟨rfl, hsize⟩ := hcount
      have hmake : Invoker.make b.arity b = .ok ⟨b, rfl⟩ := Invoker.make_eq_ok_iff.mpr rfl
      simp only [obey, hb, invoke, hmake, hsize, dite_true]
      rcases hinvoke : Invoker.invoke (⟨b, rfl⟩ : Invoker σ b.arity) ⟨args.toArray, hsize⟩
        c.contexts.world with ⟨outcome, events, left⟩
      refine (after_perform hinvoke _).trans ?_
      simp only [Crossing.make, Reaction.map, hinvoke]
      cases outcome <;> rfl
    · cases hcrossing
  | _ => cases h

/-- A call that makes no crossing does not reach a callable. -/
theorem call?_eq_none_of_crossing? (uses : command.uses = true) (h : c.crossing? command = none) :
    c.call? command = none := by
  cases command with
  | run operation numbers => exact Option.map_eq_none_iff.mpr (Option.map_eq_none_iff.mp h)
  | invoke binding n args =>
    refine Option.bind_eq_none_iff.mpr fun b hb => if_neg fun hcount => ?_
    have hsize : b.arity = n ∧ args.toArray.size = n := hcount
    have hcrossing := Option.bind_eq_none_iff.mp h b hb
    rw [dif_pos hsize] at hcrossing
    cases hcrossing
  | call => cases uses
  | _ => rfl

/-- A command that uses what the client has and makes no crossing leaves the contexts as they
are. -/
theorem contexts_of_no_crossing (uses : command.uses = true) (h : c.crossing? command = none) :
    (c.obey command).2.contexts = c.contexts := by
  have hcall := call?_eq_none_of_crossing? uses h
  cases command with
  | make o n | copy n =>
    rw [obey]
    split
    · exact contexts_keep ..
    · rfl
  | run operation numbers => rw [obey_of_no_call rfl hcall]
  | invoke binding n args => rw [obey_of_no_call rfl hcall]
  | _ => cases uses

/-- **A client that uses what it has makes its crossings**, through whatever copies, and its
contexts change in nothing else. -/
theorem contexts_of_uses {history : List (Command σ)}
    (uses : ∀ command ∈ history, command.uses = true) :
    (c.obeyAll history).contexts =
      (c.called (Crossing.makeAll (c.crossings history) c.contexts.world).2.2
        (Crossing.makeAll (c.crossings history) c.contexts.world).2.1).contexts := by
  induction history generalizing c with
  | nil => simp [crossings, along, Crossing.makeAll, called]
  | cons command rest ih =>
    obtain ⟨hcommand, hrest⟩ := List.forall_mem_cons.mp uses
    rw [obeyAll_cons, ih hrest, crossings_cons]
    cases hcrossing : c.crossing? command with
    | none =>
      have hcontexts := contexts_of_no_crossing hcommand hcrossing
      simp only [called, hcontexts, Option.toList_none, List.nil_append]
    | some x =>
      have hobey := obey_of_crossing hcrossing
      simp only [hobey, called, Option.toList_some, List.singleton_append, Crossing.makeAll,
        List.append_assoc]

end Client

/-! ## The conduct of calls -/

/-- How calls through invokers and operations go. -/
structure Conduct (σ : Type) : Prop where
  /-- Each crossing calls its callable once, after it has told of itself, and judges the reply. -/
  each : ∀ (x : Crossing σ) (world : σ) (reply : Reply) (events : List Event) (left : σ),
    x.binding.callable x.args world = (reply, events, left) → ∃ outcome defect,
      x.Judged reply outcome defect ∧ x.make world = (outcome, x.told events defect, left)
  /-- A reply is judged in one way only. -/
  settled : ∀ (x : Crossing σ) (reply : Reply) (outcome other : Outcome Result)
    (defect another : Option Defect), x.Judged reply outcome defect →
      x.Judged reply other another → outcome = other ∧ defect = another
  /-- A defect is that of the binding.  It ends the call and is no result of it. -/
  raised : ∀ (x : Crossing σ) (reply : Reply) (outcome : Outcome Result) (d : Defect),
    x.Judged reply outcome (some d) →
      outcome = .panicked (.defect d) ∧ d.symbol = x.binding.name
  /-- The call is told as a trace and its defect as an error, and the border tells nothing else. -/
  levels : ∀ (x : Crossing σ) (events : List Event) (defect : Option Defect),
    (x.told events defect).map Event.level =
      .trace :: (events.map Event.level ++ (defect.map fun _ => Level.error).toList)
  /-- The call is told with its arguments as they are. -/
  carried : ∀ (x : Crossing σ) (events : List Event) (defect : Option Defect),
    (x.told events defect).flatMap Event.operands =
      ("args", x.args) :: events.flatMap Event.operands
  /-- Crossings through whatever copies form a single course. -/
  course : ∀ (xs : List (Crossing σ)) (world : σ), Crossing.Course xs world
    (Crossing.makeAll xs world).1 (Crossing.makeAll xs world).2.1 (Crossing.makeAll xs world).2.2
  /-- They make one call each, with the arguments as they are. -/
  calls : ∀ (xs : List (Crossing σ)) (world : σ) (journal : Journal),
    Crossing.makeAll (xs.map Crossing.watched) (world, journal) =
      ((Crossing.makeAll xs world).1, (Crossing.makeAll xs world).2.1,
        (Crossing.makeAll xs world).2.2, journal ++ xs.map fun x => (x.binding.id, x.args))
  /-- A command of a client that makes a crossing does nothing else. -/
  obeyed : ∀ (c : Client σ) (command : Command σ) (x : Crossing σ),
    c.crossing? command = some x →
      c.obey command = ((x.make c.contexts.world).1.response x.respond,
        c.called (x.make c.contexts.world).2.2 (x.make c.contexts.world).2.1)
  /-- The copy of an operation makes the crossings of that operation. -/
  copied : ∀ (c : Client σ) (k m : Nat) (op : Made σ), c.operations[k]? = some op →
    (c.obey (.copy k)).1 = .operation m → ∀ numbers,
      (c.obey (.copy k)).2.crossing? (.run m numbers) = some (op.crossing numbers)
  /-- A client that makes, copies and calls operations and calls invokers in any order makes its
  crossings in that order. -/
  history : ∀ (c : Client σ) (history : List (Command σ)),
    (∀ command ∈ history, command.uses = true) →
      (c.obeyAll history).contexts =
        (c.called (Crossing.makeAll (c.crossings history) c.contexts.world).2.2
          (Crossing.makeAll (c.crossings history) c.contexts.world).2.1).contexts

/-- **Every invocation makes one call, and every failure becomes the defect that fits it**, for
whatever callables. -/
theorem conduct_of_calls (σ : Type) : Conduct σ where
  each _ _ _ _ _ h := Crossing.make_eq h
  settled _ _ _ _ _ _ h hother := h.unique hother
  raised _ _ _ _ h := h.raised
  levels x events defect := by cases defect <;> simp [Crossing.told, Event.level]
  carried x events defect := by cases defect <;> simp [Crossing.told, Event.operands]
  course xs world := Crossing.course_makeAll world xs
  calls xs world journal := Crossing.makeAll_watched world journal xs
  obeyed _ _ _ h := Client.obey_of_crossing h
  copied c k m op hop h numbers := by
    rw [Client.crossing?, Client.operation_of_copy hop h, Option.map_some]
  history _ _ uses := Client.contexts_of_uses uses

/-- A routine that echoes its argument and counts its calls.  At the second call it answers the
count, which is no address, and after that it refuses: also the release, which shares the count. -/
example :
    let routine : Callable Nat := fun args count =>
      (.returned (if count < 1 then .ok (args.headD .void)
        else if count < 2 then .ok (.uint64 2) else .error (.unsupported "tired")), [], count + 1)
    let cast : Invoker Nat 4 := ⟨.make 0 "cast" Operation.dynamicCast.signature routine, rfl⟩
    let free : Invoker Nat 1 := ⟨.make 1 "free" Operation.freeException.signature routine, rfl⟩
    Crossing.makeAll [.cast cast ⟨7⟩ ⟨8⟩ ⟨9⟩ 0, .cast cast ⟨7⟩ ⟨8⟩ ⟨9⟩ 0, .free free ⟨7⟩] 0 =
      ([.returned (.address ⟨7⟩), .panicked (.defect (.resultShape "cast" ⟨.uint64⟩)),
          .panicked (.defect (.transport "free" (.unsupported "tired")))],
        [.nativeCall "cast" [.pointer ⟨7⟩, .pointer ⟨8⟩, .pointer ⟨9⟩, .uint64 0],
          .nativeCall "cast" [.pointer ⟨7⟩, .pointer ⟨8⟩, .pointer ⟨9⟩, .uint64 0],
          .defect (.resultShape "cast" ⟨.uint64⟩), .nativeCall "free" [.pointer ⟨7⟩],
          .defect (.transport "free" (.unsupported "tired"))], 3) := by
  decide +kernel

end NativeLink
