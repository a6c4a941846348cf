import Mathlib.Logic.Relation
import NativeLink.Proofs.Interleaving.Log
import NativeLink.Proofs.Session.Request

/-!
# A thread that runs alone

A request is described twice: as one act in a session, with everything its resolver does
in the middle of it, and as a sequence of steps between which other threads may run.  If
no other thread runs, the two come to the same.  `State.session` reads a state as a
session, and `request_alone` says that a thread whose request runs to its end is then in
the session that the act leaves, with the answer of the act.  If the act never ends, the
thread comes to its session too and can make no further step.

A plan makes its requests on top of the one it belongs to, so the statement is about
whatever lies below, and about a thread at any position among others that rest.  The
induction is on plans: `runsAlone` takes a plan to its last node, and a request that it
makes on the way is `fares_of_entering` for the plan of that request.

`serve_alone` is the story of a single thread: whatever state it has come to, it goes on
to the one state in which it has made its requests one after the other.
-/

namespace NativeLink

variable {σ : Type}

/-! ## Requests one after the other -/

namespace Request

/-- A request as an act in a session. -/
def act (request : Request σ) : Act σ (Answer σ) :=
  Session.request request.name request.text fun signature => (request.work signature).run

/-- Makes requests one after the other, and stops at one that never ends: the names and outcomes of
those that ended, and the session that is left. -/
def serve : List (Request σ) → Session σ → List (String × Outcome (Answer σ)) × Session σ
  | [], s => ([], s)
  | request :: rest, s =>
    match request.act s with
    | (.stuck, u) => ([], u)
    | (outcome, u) => ((request.name, outcome) :: (serve rest u).1, (serve rest u).2)

/-- Whether each of some requests ends that are made one after the other. -/
def Ends : List (Request σ) → Session σ → Prop
  | [], _ => True
  | request :: rest, s => (request.act s).1 ≠ .stuck ∧ Ends rest (request.act s).2

theorem serve_of_stuck {request : Request σ} {s : Session σ} (h : (request.act s).1 = .stuck)
    (rest : List (Request σ)) : serve (request :: rest) s = ([], (request.act s).2) := by
  rcases hact : request.act s with ⟨outcome, u⟩
  rw [hact] at h
  cases h
  simp only [serve, hact]

theorem serve_of_ended {request : Request σ} {s : Session σ} (h : (request.act s).1 ≠ .stuck)
    (rest : List (Request σ)) :
    serve (request :: rest) s = ((request.name, (request.act s).1) ::
      (serve rest (request.act s).2).1, (serve rest (request.act s).2).2) := by
  rcases hact : request.act s with ⟨_ | _ | _, u⟩
  · simp only [serve, hact]
  · simp only [serve, hact]
  · simp [hact] at h

end Request

/-- The node at which a plan stands when its run has this outcome. -/
def Plan.last : Outcome (Except ResolveError (Callable σ)) → Plan σ
  | .returned result => .answer result
  | .panicked cause => .panic cause
  | .stuck => .stuck

namespace Interleaving

/-! ## States as sessions -/

namespace Moment

/-- The event that a moment tells. -/
def event? : Moment σ → Option Event
  | told _ event => some event
  | _ => none

/-- The outcome that a moment hands on, with the name of its request. -/
def outcome? : Moment σ → Option (String × Outcome (Answer σ))
  | answered _ name outcome => some (name, outcome)
  | _ => none

end Moment

/-- The state as a session, with what was told in the order it was told. -/
def State.session (s : State σ) : Session σ :=
  ⟨s.table, s.world, s.fresh, s.history.reverse.filterMap Moment.event?⟩

/-- What requests were answered, in order. -/
def State.outcomes (s : State σ) : List (String × Outcome (Answer σ)) :=
  s.history.reverse.filterMap Moment.outcome?

theorem session_change (s : State σ) (c : Change σ) :
    (s.change c).session =
      ⟨c.table, c.world, c.fresh, s.session.log ++ c.moments.filterMap Moment.event?⟩ := by
  simp [State.session, State.change]

theorem session_setThread (s : State σ) (i : Nat) (thread : Thread σ) :
    (s.setThread i thread).session = s.session := rfl

theorem session_enter (s : State σ) (i : Nat) (calls : List (Call σ)) (todo : List (Request σ))
    (request : Request σ) : (s.enter i calls todo request).session = s.session := by
  simp [State.session, State.enter, State.record, State.setThread, Moment.event?]

theorem outcomes_sublist_of_reaches {s t : State σ} (h : Reaches s t) :
    s.outcomes.Sublist t.outcomes := by
  obtain ⟨later, hlater⟩ := history_suffix_of_reaches h
  refine List.Sublist.filterMap _ ?_
  rw [← hlater, List.reverse_append]
  exact List.sublist_append_left _ _

/-! ## Going alone -/

/-- Steps of thread `i`, one after the other. -/
def Goes (i : Nat) : State σ → State σ → Prop :=
  Relation.ReflTransGen fun s t => step? s i = some t

theorem Goes.reaches {i : Nat} {s t : State σ} (h : Goes i s t) : Reaches s t := by
  induction h with
  | refl => exact .refl s
  | tail _ step ih => exact ih.tail step

/-- A thread that goes alone has only one way to go. -/
theorem Goes.of_still {i : Nat} {s t u : State σ} (ht : Goes i s t) (still : step? t i = none)
    (hu : Goes i s u) : Goes i u t := by
  have hunique : Relator.RightUnique fun s t : State σ => step? s i = some t :=
    fun _ _ _ h k => Option.some.inj (h.symm.trans k)
  rcases Relation.ReflTransGen.total_of_right_unique hunique hu ht with h | h
  · exact h
  · rcases Relation.ReflTransGen.cases_head h with rfl | ⟨v, hstep, -⟩
    · exact .refl
    · rw [still] at hstep
      cases hstep

/-- Thread `i` goes from `s` to a state that is `u` as a session, and there this is the thread. -/
def Comes (i : Nat) (s : State σ) (u : Session σ) (thread : Thread σ) : Prop :=
  ∃ t, Goes i s t ∧ t.session = u ∧ t.threads[i]? = some thread

/-- How thread `i` fares from `s` on with something that has this outcome in a session: it comes to
the session that is left, and to what `after` says, or is held up there for ever. -/
inductive Fares {α : Type} (i : Nat) (s : State σ) (after : Outcome α → State σ → Prop)
    (given : Outcome α × Session σ) : Prop where
  | ends {t : State σ} (ended : given.1 ≠ .stuck) (goes : Goes i s t)
    (session : t.session = given.2) (holds : after given.1 t)
  | halts {call : Call σ} {below : List (Call σ)} {todo : List (Request σ)} {t : State σ}
    (stuck : given.1 = .stuck) (goes : Goes i s t) (session : t.session = given.2)
    (thread : t.threads[i]? = some ⟨call :: below, todo⟩) (still : step? t i = none)

namespace Fares

variable {α β : Type} {i : Nat} {s : State σ} {after : Outcome α → State σ → Prop}
  {outcome : Outcome α} {u : Session σ}

/-- What ends leads on. -/
theorem comes (h : Fares i s after (outcome, u)) (ended : outcome ≠ .stuck) {thread : Thread σ}
    (hafter : ∀ t, after outcome t → t.threads[i]? = some thread) : Comes i s u thread := by
  cases h with
  | ends _ goes session holds => exact ⟨_, goes, session, hafter _ holds⟩
  | halts stuck _ _ _ _ => exact absurd stuck ended

/-- What never ends holds up whatever it is part of. -/
theorem stays {other : Outcome β → State σ → Prop} (h : Fares i s after (.stuck, u)) :
    Fares i s other (.stuck, u) := by
  cases h with
  | ends ended _ _ _ => exact absurd rfl ended
  | halts _ goes session thread still => exact .halts rfl goes session thread still

end Fares

/-- The thread after its topmost request has left: its outcome is the latest of all. -/
structure Leaves (i : Nat) (s : State σ) (name : String) (below : List (Call σ))
    (todo : List (Request σ)) (outcome : Outcome (Answer σ)) (t : State σ) : Prop where
  thread : t.threads[i]? = some ⟨deliver outcome below, todo⟩
  outcomes : (s.outcomes ++ [(name, outcome)]).Sublist t.outcomes

/-! ## The steps of a request, as changes of a session -/

section

variable {i : Nat} {s t : State σ} {u v : Session σ} {k slot : Nat} {request : Request σ}
  {signature : Signature} {below : List (Call σ)} {todo : List (Request σ)}

theorem getElem?_setThread {old : Thread σ} (h : s.threads[i]? = some old) (new : Thread σ) :
    (s.setThread i new).threads[i]? = some new :=
  List.getElem?_set_self (List.getElem?_eq_some_iff.mp h).1

namespace Comes

theorem refl {thread : Thread σ} (h : s.threads[i]? = some thread) :
    Comes i s s.session thread := ⟨s, .refl, rfl, h⟩

theorem shift {call : Call σ} {stage : Stage σ} {c : Change σ} (goes : Goes i s t)
    (thread : t.threads[i]? = some ⟨call :: below, todo⟩) (h : Shift t call stage c)
    (session : ⟨c.table, c.world, c.fresh,
      t.session.log ++ c.moments.filterMap Moment.event?⟩ = v) :
    Comes i s v ⟨{ call with stage := stage } :: below, todo⟩ := by
  refine ⟨_, goes.tail (step?_of_shift thread h), ?_, getElem?_setThread (s := t.change c) thread _⟩
  rw [session_setThread, session_change, session]

theorem enter (h : Comes i s u ⟨⟨k, request, .entering⟩ :: below, todo⟩) :
    Comes i s (u.withTable (u.table.acquire request.name).2)
      ⟨⟨k, request, .reading (u.table.acquire request.name).1⟩ :: below, todo⟩ := by
  obtain ⟨t, goes, rfl, thread⟩ := h
  exact shift goes thread (.enter rfl) (by simp [State.altered, Session.withTable, State.session])

theorem miss (h : Comes i s u ⟨⟨k, request, .reading slot⟩ :: below, todo⟩)
    (cell : (u.table.cell slot).binding? = none) :
    Comes i s u ⟨⟨k, request, .waiting slot⟩ :: below, todo⟩ := by
  obtain ⟨t, goes, rfl, thread⟩ := h
  exact shift goes thread (.miss rfl cell) (by simp [State.still, State.session])

theorem hit {binding : Binding σ} (h : Comes i s u ⟨⟨k, request, .reading slot⟩ :: below, todo⟩)
    (cell : u.table.cell slot = .bound binding) :
    Comes i s (u.tell (binding.conflict request.text))
      ⟨⟨k, request, .leaving slot (.returned (.ok binding))⟩ :: below, todo⟩ := by
  obtain ⟨t, goes, rfl, thread⟩ := h
  refine shift goes thread (.hit (.inl rfl) cell) ?_
  simp [State.still, Session.tell, State.session, List.filterMap_map, Moment.event?,
    Function.comp_def]

theorem begin (h : Comes i s u ⟨⟨k, request, .waiting slot⟩ :: below, todo⟩)
    (cell : u.table.cell slot = .empty) :
    Comes i s (u.withTable (u.table.setCell slot .busy))
      ⟨⟨k, request, .opening slot⟩ :: below, todo⟩ := by
  obtain ⟨t, goes, rfl, thread⟩ := h
  refine shift goes thread (.begin rfl cell) ?_
  simp [State.altered, Session.withTable, State.session, Moment.event?]

theorem accept (h : Comes i s u ⟨⟨k, request, .opening slot⟩ :: below, todo⟩)
    (text : Signature.parse request.text = .ok signature) :
    Comes i s (u.tell [.resolving request.name signature])
      ⟨⟨k, request, .running slot signature (request.work signature)⟩ :: below, todo⟩ := by
  obtain ⟨t, goes, rfl, thread⟩ := h
  refine shift goes thread (.accept rfl text) ?_
  simp [State.still, Session.tell, State.session, Moment.event?]

theorem reject {error : ResolveError} (h : Comes i s u ⟨⟨k, request, .opening slot⟩ :: below, todo⟩)
    (text : Signature.parse request.text = .error error) :
    Comes i s (u.withTable (u.table.setCell slot .empty))
      ⟨⟨k, request, .failing slot error⟩ :: below, todo⟩ := by
  obtain ⟨t, goes, rfl, thread⟩ := h
  refine shift goes thread (.reject rfl text) ?_
  simp [State.altered, Session.withTable, State.session, Moment.event?]

theorem bind {callable : Callable σ}
    (h : Comes i s u ⟨⟨k, request, .running slot signature (.answer (.ok callable))⟩ :: below, todo⟩) :
    Comes i s { u with
        table := u.table.setCell slot (.bound (.make u.fresh request.name signature callable))
        fresh := u.fresh + 1 }
      ⟨⟨k, request, .leaving slot
        (.returned (.ok (.make u.fresh request.name signature callable)))⟩ :: below, todo⟩ := by
  obtain ⟨t, goes, rfl, thread⟩ := h
  exact shift goes thread (.bind rfl) (by simp [State.session, Moment.event?])

theorem refuse {error : ResolveError}
    (h : Comes i s u ⟨⟨k, request, .running slot signature (.answer (.error error))⟩ :: below, todo⟩) :
    Comes i s (u.withTable (u.table.setCell slot .empty))
      ⟨⟨k, request, .failing slot error⟩ :: below, todo⟩ := by
  obtain ⟨t, goes, rfl, thread⟩ := h
  refine shift goes thread (.refuse rfl) ?_
  simp [State.altered, Session.withTable, State.session, Moment.event?]

theorem panic {cause : Panic}
    (h : Comes i s u ⟨⟨k, request, .running slot signature (.panic cause)⟩ :: below, todo⟩) :
    Comes i s (u.withTable (u.table.setCell slot .empty))
      ⟨⟨k, request, .leaving slot (.panicked cause)⟩ :: below, todo⟩ := by
  obtain ⟨t, goes, rfl, thread⟩ := h
  refine shift goes thread (.panic rfl) ?_
  simp [State.altered, Session.withTable, State.session, Moment.event?]

theorem tell {event : Event} {next : Plan σ}
    (h : Comes i s u ⟨⟨k, request, .running slot signature (.tell event next)⟩ :: below, todo⟩) :
    Comes i s (u.tell [event]) ⟨⟨k, request, .running slot signature next⟩ :: below, todo⟩ := by
  obtain ⟨t, goes, rfl, thread⟩ := h
  refine shift goes thread (.tell rfl) ?_
  simp [State.still, Session.tell, State.session, Moment.event?]

theorem step {change : σ → σ} {next : σ → Plan σ}
    (h : Comes i s u ⟨⟨k, request, .running slot signature (.step change next)⟩ :: below, todo⟩) :
    Comes i s { u with world := change u.world }
      ⟨⟨k, request, .running slot signature (next u.world)⟩ :: below, todo⟩ := by
  obtain ⟨t, goes, rfl, thread⟩ := h
  exact shift goes thread (.step rfl) (by simp [State.session])

theorem look {other : String} {next : Option (Binding σ) → Plan σ}
    (h : Comes i s u ⟨⟨k, request, .running slot signature (.look other next)⟩ :: below, todo⟩) :
    Comes i s u
      ⟨⟨k, request, .running slot signature (next (u.table.get? other))⟩ :: below, todo⟩ := by
  obtain ⟨t, goes, rfl, thread⟩ := h
  exact shift goes thread (.look rfl) (by simp [State.still, State.session])

/-- The plan of the topmost request makes a request. -/
theorem nest {name text : String} {work : Signature → Plan σ} {next : Answer σ → Plan σ}
    (h : Comes i s u
      ⟨⟨k, request, .running slot signature (.request name text work next)⟩ :: below, todo⟩) :
    ∃ j, Comes i s u ⟨⟨j, ⟨name, text, work⟩, .entering⟩ ::
      ⟨k, request, .running slot signature (.request name text work next)⟩ :: below, todo⟩ := by
  obtain ⟨t, goes, rfl, thread⟩ := h
  refine ⟨t.tickets, _, goes.tail (step?_eq_some_iff.mpr (.nest thread rfl)), session_enter .., ?_⟩
  exact getElem?_setThread (s := t) thread _

theorem discard {error : ResolveError}
    (h : Comes i s u ⟨⟨k, request, .failing slot error⟩ :: below, todo⟩) :
    Comes i s (u.withTable (u.table.discardUnbound request.name slot))
      ⟨⟨k, request, .leaving slot (.returned (.error error))⟩ :: below, todo⟩ := by
  obtain ⟨t, goes, rfl, thread⟩ := h
  refine shift goes thread (.discard rfl) ?_
  simp [State.altered, Session.withTable, State.session, Moment.event?]

/-- The topmost request gives its slot up, and hands its outcome on. -/
theorem leave {outcome : Outcome (Answer σ)}
    (h : Comes i s u ⟨⟨k, request, .leaving slot outcome⟩ :: below, todo⟩)
    (ended : outcome ≠ .stuck) :
    Fares i s (Leaves i s request.name below todo)
      (outcome, u.withTable (u.table.release slot)) := by
  obtain ⟨t, goes, rfl, thread⟩ := h
  have hmove := Move.leave thread rfl
  refine .ends ended (goes.tail (step?_eq_some_iff.mpr hmove)) ?_
    ⟨getElem?_setThread (s := t.change _) thread _, ?_⟩
  · rw [session_setThread, session_change]
    simp [State.altered, State.session, Session.withTable, Moment.event?]
  · have houtcomes := outcomes_sublist_of_reaches goes.reaches
    simpa [State.outcomes, State.setThread, State.change, State.altered, Moment.outcome?]
      using houtcomes

/-- A request that waits at a busy cell does so for ever. -/
theorem blocked {α : Type} {after : Outcome α → State σ → Prop}
    (h : Comes i s u ⟨⟨k, request, .waiting slot⟩ :: below, todo⟩)
    (cell : u.table.cell slot = .busy) : Fares i s after (.stuck, u) := by
  obtain ⟨t, goes, rfl, thread⟩ := h
  have hcell : t.table.cell slot = .busy := cell
  exact .halts rfl goes rfl thread (by simp only [step?, thread, advance, hcell])

theorem stuck {α : Type} {after : Outcome α → State σ → Prop}
    (h : Comes i s u ⟨⟨k, request, .running slot signature .stuck⟩ :: below, todo⟩) :
    Fares i s after (.stuck, u) := by
  obtain ⟨t, goes, rfl, thread⟩ := h
  exact .halts rfl goes rfl thread (by simp only [step?, thread, advance])

end Comes

/-! ## Requests and plans -/

/-- The run of a plan on a thread that goes alone is its run in a session. -/
def RunsAlone (p : Plan σ) : Prop :=
  ∀ {i : Nat} {s : State σ} {u : Session σ} {k : Nat} {request : Request σ} {slot : Nat}
    {signature : Signature} {below : List (Call σ)} {todo : List (Request σ)},
    Comes i s u ⟨⟨k, request, .running slot signature p⟩ :: below, todo⟩ →
      Fares i s (fun outcome t => t.threads[i]? =
        some ⟨⟨k, request, .running slot signature (.last outcome)⟩ :: below, todo⟩) (p.run u)

/-- A request that did not find its cell bound waits for it to be free. -/
theorem Comes.waits (h : Comes i s u ⟨⟨k, request, .entering⟩ :: below, todo⟩)
    (unbound : ((u.table.acquire request.name).2.cell
      (u.table.acquire request.name).1).binding? = none) :
    Comes i s (u.withTable (u.table.acquire request.name).2)
      ⟨⟨k, request, .waiting (u.table.acquire request.name).1⟩ :: below, todo⟩ :=
  h.enter.miss unbound

/-- A request that found its cell empty is ready to read its signature. -/
theorem Comes.opens (h : Comes i s u ⟨⟨k, request, .entering⟩ :: below, todo⟩)
    (cell : (u.table.acquire request.name).2.cell (u.table.acquire request.name).1 = .empty) :
    Comes i s (u.withTable
        ((u.table.acquire request.name).2.setCell (u.table.acquire request.name).1 .busy))
      ⟨⟨k, request, .opening (u.table.acquire request.name).1⟩ :: below, todo⟩ :=
  (h.waits (by simp [cell, Cell.binding?])).begin cell

/-- A request that found its cell empty, and can read its signature, is ready to run its plan. -/
theorem Comes.resolves (h : Comes i s u ⟨⟨k, request, .entering⟩ :: below, todo⟩)
    (cell : (u.table.acquire request.name).2.cell (u.table.acquire request.name).1 = .empty)
    (parsed : Signature.parse request.text = .ok signature) :
    Comes i s (u.opened (u.table.acquire request.name).2 (u.table.acquire request.name).1
        request.name signature)
      ⟨⟨k, request, .running (u.table.acquire request.name).1 signature
        (request.work signature)⟩ :: below, todo⟩ :=
  (h.opens cell).accept parsed

/-- **A request on a thread that goes alone is the act**, if the same is true of the plans of its
resolver. -/
theorem fares_of_entering (hplan : ∀ signature, RunsAlone (request.work signature))
    (h : Comes i s u ⟨⟨k, request, .entering⟩ :: below, todo⟩) :
    Fares i s (Leaves i s request.name below todo) (request.act u) := by
  rcases hact : request.act u with ⟨outcome, v⟩
  cases Session.requested_of_request hact with
  | hit cell => exact (h.enter.hit cell).leave (by simp)
  | blocked cell => exact (h.waits (by simp [cell, Cell.binding?])).blocked cell
  | refused cell parsed =>
    -- the cell was marked busy and emptied again, where the act empties it at once
    have hleft := ((h.opens cell).reject parsed).discard.leave (by simp)
    simp only [Session.withTable, Table.setCell_setCell] at hleft
    exact hleft
  | accepted cell parsed run =>
    have hwork := hplan _ (h.resolves cell parsed)
    rw [run] at hwork
    exact (hwork.comes (by simp) fun _ => id).bind.leave (by simp)
  | failed cell parsed run =>
    have hwork := hplan _ (h.resolves cell parsed)
    rw [run] at hwork
    exact (hwork.comes (by simp) fun _ => id).refuse.discard.leave (by simp)
  | panicked cell parsed run =>
    have hwork := hplan _ (h.resolves cell parsed)
    rw [run] at hwork
    exact (hwork.comes (by simp) fun _ => id).panic.leave (by simp)
  | stuck cell parsed run =>
    have hwork := hplan _ (h.resolves cell parsed)
    rw [run] at hwork
    exact hwork.stays

/-- **Every plan is run alone as in a session.** -/
theorem runsAlone (p : Plan σ) : RunsAlone p := by
  induction p with
  | answer result =>
    intro i s u k request slot signature below todo h
    obtain ⟨t, goes, session, thread⟩ := h
    exact .ends (by simp [Plan.run]) goes session thread
  | panic cause =>
    intro i s u k request slot signature below todo h
    obtain ⟨t, goes, session, thread⟩ := h
    exact .ends (by simp [Plan.run]) goes session thread
  | stuck => exact fun h => h.stuck
  | tell event next ih => exact fun h => ih h.tell
  | step change next ih => exact fun h => ih _ h.step
  | look name next ih => exact fun h => ih _ h.look
  | request name text work next ihwork ihnext =>
    intro i s u k request slot signature below todo h
    obtain ⟨j, hentering⟩ := h.nest
    have hinner := fares_of_entering ihwork hentering
    -- what the inner request hands down is what the plan goes on with
    rcases hact : Request.act ⟨name, text, work⟩ u with ⟨outcome, v⟩
    rw [hact] at hinner
    simp only [Request.act] at hact
    simp only [Plan.run, Act.andThen, hact]
    cases outcome with
    | returned given => exact ihnext given (hinner.comes (by simp) fun _ => Leaves.thread)
    | panicked cause =>
      obtain ⟨t, goes, session, thread⟩ := hinner.comes (by simp) fun _ => Leaves.thread
      exact .ends (by simp) goes session thread
    | stuck => exact hinner.stays

/-- **A request on a thread that goes alone is the act.** -/
theorem request_alone (h : s.threads[i]? = some ⟨[], request :: todo⟩) :
    Fares i s (Leaves i s request.name [] todo) (request.act s.session) := by
  have hentering : Comes i s s.session ⟨[⟨s.tickets, request, .entering⟩], todo⟩ :=
    ⟨s.enter i [] todo request, .single (step?_eq_some_iff.mpr (.start h)), session_enter ..,
      getElem?_setThread (s := s) h _⟩
  exact fares_of_entering (fun _ => runsAlone _) hentering

end

/-! ## One thread -/

/-- Thread `i` goes from `s` to the end of its requests, or as far as it gets with them. -/
structure Serves (i : Nat) (s : State σ) (requests : List (Request σ)) (t : State σ) : Prop where
  goes : Goes i s t
  still : step? t i = none
  session : t.session = (Request.serve requests s.session).2
  /-- Among the outcomes there may be those of requests that the plans have made. -/
  outcomes : (s.outcomes ++ (Request.serve requests s.session).1).Sublist t.outcomes
  done : t.threads[i]? = some ⟨[], []⟩ ↔ Request.Ends requests s.session

/-- **A thread that goes alone makes its requests one after the other.** -/
theorem requests_alone {i : Nat} (requests : List (Request σ)) {s : State σ}
    (h : s.threads[i]? = some ⟨[], requests⟩) : ∃ t, Serves i s requests t := by
  induction requests generalizing s with
  | nil =>
    refine ⟨s, .refl, ?_, rfl, ?_, ?_⟩
    · simp only [step?, h]
    · simp [Request.serve]
    · simp [h, Request.Ends]
  | cons request rest ih =>
    cases request_alone h with
    | @ends v ended goes session holds =>
      obtain ⟨t, ht⟩ := ih holds.thread
      refine ⟨t, goes.trans ht.goes, ht.still, ?_, ?_, ?_⟩
      · rw [Request.serve_of_ended ended, ht.session, session]
      · have houtcomes := (holds.outcomes.append_right _).trans ht.outcomes
        rw [Request.serve_of_ended ended, ← session]
        simpa using houtcomes
      · rw [ht.done, session, Request.Ends]
        exact (and_iff_right ended).symm
    | @halts call below todo t stuck goes session thread still =>
      refine ⟨t, goes, still, ?_, ?_, ?_⟩
      · rw [Request.serve_of_stuck stuck, session]
      · rw [Request.serve_of_stuck stuck, List.append_nil]
        exact outcomes_sublist_of_reaches goes.reaches
      · simp [thread, Request.Ends, stuck]

/-- A step is made by one of the threads, and leaves as many. -/
theorem lt_length_of_step? {i : Nat} {s t : State σ} (h : step? s i = some t) :
    i < s.threads.length ∧ t.threads.length = s.threads.length := by
  cases move_of_step? h with
  | start thread => exact ⟨(List.getElem?_eq_some_iff.mp thread).1, List.length_set⟩
  | nest thread stage => exact ⟨(List.getElem?_eq_some_iff.mp thread).1, List.length_set⟩
  | shift thread shift => exact ⟨(List.getElem?_eq_some_iff.mp thread).1, List.length_set⟩
  | leave thread stage => exact ⟨(List.getElem?_eq_some_iff.mp thread).1, List.length_set⟩

/-- A thread that has no other beside it goes alone. -/
theorem goes_of_reaches {s t : State σ} (h : Reaches s t) (hone : s.threads.length = 1) :
    Goes 0 s t ∧ t.threads.length = 1 := by
  induction h with
  | refl => exact ⟨.refl, hone⟩
  | @tail t u i _ hstep ih =>
    obtain ⟨hlt, hlength⟩ := lt_length_of_step? hstep
    have hi : i = 0 := by omega
    subst hi
    exact ⟨ih.1.tail hstep, hlength.trans ih.2⟩

/-- **The interleaving of a single thread is the sequential run.**  Whatever state it has come to,
it goes on to the one in which its requests have been made one after the other on a new cache. -/
theorem serve_alone (world : σ) (requests : List (Request σ)) :
    ∃ t : State σ, t.session = (Request.serve requests (.start world)).2 ∧
      (Request.serve requests (.start world)).1.Sublist t.outcomes ∧
        (t.threads = [⟨[], []⟩] ↔ Request.Ends requests (.start world)) ∧
          (∀ j, step? t j = none) ∧
            ∀ u, Reaches (.start world [requests]) u → Reaches u t := by
  obtain ⟨t, ht⟩ := requests_alone (i := 0) (s := .start world [requests]) requests rfl
  obtain ⟨-, hlength⟩ := goes_of_reaches ht.goes.reaches rfl
  refine ⟨t, ht.session, (List.sublist_append_right _ _).trans ht.outcomes, ?_, fun j => ?_,
    fun u hu => ?_⟩
  · refine Iff.trans ?_ ht.done
    obtain ⟨thread, hthread⟩ := List.length_eq_one_iff.mp hlength
    simp [hthread]
  · rcases Nat.eq_zero_or_pos j with rfl | hj
    · exact ht.still
    · rw [step?, List.getElem?_eq_none (by omega)]
  · exact (ht.goes.of_still ht.still (goes_of_reaches hu rfl).1).reaches

end Interleaving

end NativeLink
