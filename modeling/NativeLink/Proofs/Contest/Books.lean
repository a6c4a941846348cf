import NativeLink.Proofs.Contest.Fair

/-!
# What the resolver of a contest decides

The resolver fails as long as it was asked for a name fewer times than the contest has
it fail, and how often it was asked it knows from the world, which all threads share.
That the answers come out right although threads interleave rests on runs for one name
not overlapping: between the question and the end of the run nobody else asks for this
name.

So while a request has a verdict it is the only one for its name that has
(`decided_rest`), and the number of questions before its own is the number of runs that
have failed, for none has succeeded.  `Books` says this for one name, and what follows:
the failures are those of the first few questions, in their order (`reasons`), there are
never too many (`few`), and there are as many as there should be when a run succeeds
(`enough`).
-/

namespace NativeLink

open Interleaving

/-- Whether a run for a name succeeded. -/
def Interleaving.Moment.isWon {σ : Type} (name : String) : Moment σ → Bool
  | ended _ other (.returned (.ok _)) => other == name
  | _ => false

namespace Contest

variable {c : Contest} {v : Verdicts} {s t : State Asked} {name : String}

/-- Whether a plan has the verdict of the resolver. -/
def hasVerdict : Stage Asked → Bool
  | .running _ _ (.answer _) => true
  | _ => false

/-- The requests for a name that have the verdict of the resolver. -/
def decided (name : String) (calls : Multiset (Call Asked)) : Nat :=
  calls.countP fun call => call.request.name == name && hasVerdict call.stage

theorem decided_cons (name : String) (call : Call Asked) (rest : Multiset (Call Asked)) :
    decided name (call ::ₘ rest) = decided name rest +
      if call.request.name == name && hasVerdict call.stage then 1 else 0 :=
  Multiset.countP_cons _ _ _

theorem hasVerdict_of_idle {stage : Stage Asked} (h : isRunning stage = false) :
    hasVerdict stage = false := by
  cases stage <;> first | rfl | cases h

/-- A plan with a verdict is at work in its cell. -/
theorem work?_of_hasVerdict {stage : Stage Asked} (h : hasVerdict stage) :
    ∃ slot, stage.phase.work? = some slot := by
  cases stage <;> first | exact ⟨_, rfl⟩ | cases h

/-- What is known of the runs for a name. -/
structure Books (c : Contest) (v : Verdicts) (name : String) (s : State Asked) : Prop where
  consulted : s.world.count name = (failed name s.history).length +
    s.history.countP (Moment.isWon name) + decided name s.calls
  verdict : ∀ call ∈ s.calls, call.request.name = name → ∀ slot signature result,
    call.stage = .running slot signature (.answer result) →
    ∃ before, result = v.verdict c.failures name before ∧ s.world.count name = before + 1
  reasons : failed name s.history =
    ((List.range (failed name s.history).length).map (v.reason name)).reverse
  few : (failed name s.history).length ≤ c.failures
  enough : 0 < s.history.countP (Moment.isWon name) →
    (failed name s.history).length = c.failures
  single : s.history.countP (Moment.isWon name) ≤ 1

theorem books_start (c : Contest) (v : Verdicts) (name : String) : Books c v name (c.start v) := by
  have hhistory : (c.start v).history = [] := rfl
  have hworld : (c.start v).world = [] := rfl
  constructor <;> simp [hhistory, hworld, calls_start, failed, decided]

/-! ## One run at a time -/

/-- Beside a request at work there is no other at work for its name. -/
theorem work?_rest {call : Call Asked} {rest : Multiset (Call Asked)} (hs : s.scene.Sound)
    (calls : s.calls = call ::ₘ rest) {slot : Nat} (hwork : call.stage.phase.work? = some slot)
    {other : Call Asked} (hother : other ∈ rest) (hname : other.request.name = call.request.name) :
    other.stage.phase.work? = none := by
  have hflight : s.scene.flight = call.outline ::ₘ rest.map Call.outline := by
    rw [flight_eq_map, calls, Multiset.map_cons]
  have hcall : call.outline ∈ s.scene.flight := mem_of_eq_cons hflight
  have hin : other.outline ∈ s.scene.flight := by
    rw [hflight]
    exact Multiset.mem_cons_of_mem (Multiset.mem_map_of_mem _ hother)
  cases hi : other.stage.phase.work? with
  | none => rfl
  | some i =>
    -- both are seated in the slot of the name
    have hslot := hs.seated _ hcall slot (Phase.seat?_of_work? hwork)
    have hseat := hs.seated _ hin i (Phase.seat?_of_work? hi)
    change s.scene.table.position? other.request.name = some i at hseat
    rw [hname] at hseat
    obtain rfl : i = slot := Option.some.inj (hseat.symm.trans hslot)
    have hnobody := hs.working_rest_of_work hflight hwork
    have hsomebody : 0 < Scene.working (rest.map Call.outline) i :=
      Multiset.countP_pos_of_mem (Multiset.mem_map_of_mem _ hother) hi
    omega

theorem hasVerdict_rest {call : Call Asked} {rest : Multiset (Call Asked)} (hs : s.scene.Sound)
    (calls : s.calls = call ::ₘ rest) {slot : Nat} (hwork : call.stage.phase.work? = some slot)
    {other : Call Asked} (hother : other ∈ rest) (hname : other.request.name = call.request.name) :
    hasVerdict other.stage = false := by
  have hnone := work?_rest hs calls hwork hother hname
  by_contra hverdict
  obtain ⟨i, hi⟩ := work?_of_hasVerdict (by simpa using hverdict)
  rw [hnone] at hi
  cases hi

/-- **While a request has a verdict, no other for its name has one.** -/
theorem decided_rest {call : Call Asked} {rest : Multiset (Call Asked)} (hs : s.scene.Sound)
    (calls : s.calls = call ::ₘ rest) {slot : Nat} (hwork : call.stage.phase.work? = some slot) :
    decided call.request.name rest = 0 := by
  refine Multiset.countP_eq_zero.mpr fun other hother hboth => ?_
  simp only [Bool.and_eq_true, beq_iff_eq] at hboth
  rw [hasVerdict_rest hs calls hwork hother hboth.1] at hboth
  cases hboth.2

/-- And none for its name has succeeded. -/
theorem not_won {call : Call Asked} {rest : Multiset (Call Asked)} (hs : s.scene.Sound)
    (hr : s.scene.Recorded) (calls : s.calls = call ::ₘ rest) {slot : Nat}
    (hwork : call.stage.phase.work? = some slot) :
    s.history.countP (Moment.isWon call.request.name) = 0 := by
  have hcall : call.outline ∈ s.scene.flight := by
    rw [flight_eq_map]
    exact Multiset.mem_map_of_mem _ (mem_of_eq_cons calls)
  have hnone := hs.get?_eq_none_of_work hcall hwork
  refine List.countP_eq_zero.mpr fun m hm hwon => ?_
  cases m with
  | ended k other outcome =>
    cases outcome with
    | returned answer =>
      cases answer with
      | ok b =>
        simp only [Moment.isWon, beq_iff_eq] at hwon
        rw [hwon] at hm
        exact hr.not_won hnone k b hm
      | error error => cases hwon
    | panicked cause => cases hwon
    | stuck => cases hwon
  | _ => cases hwon

/-! ## Keeping the books -/

/-- Nothing changes for the name. -/
theorem Books.same (hx : Books c v name s) (hworld : t.world.count name = s.world.count name)
    (hfailed : failed name t.history = failed name s.history)
    (hwon : t.history.countP (Moment.isWon name) = s.history.countP (Moment.isWon name))
    (hdecided : decided name t.calls = decided name s.calls)
    (hcalls : ∀ call ∈ t.calls, call.request.name = name → hasVerdict call.stage → call ∈ s.calls) :
    Books c v name t := by
  refine ⟨?_, fun call hcall hname slot signature result hstage => ?_, ?_, ?_, ?_, ?_⟩
  · rw [hworld, hfailed, hwon, hdecided]
    exact hx.consulted
  · rw [hworld]
    exact hx.verdict call (hcalls call hcall hname (by rw [hstage]; rfl)) hname _ _ _ hstage
  · rw [hfailed]
    exact hx.reasons
  · rw [hfailed]
    exact hx.few
  · rw [hfailed, hwon]
    exact hx.enough
  · rw [hwon]
    exact hx.single

/-- A request goes on that is for another name, or has no verdict before or after. -/
theorem Books.pass (hx : Books c v name s) {call : Call Asked} {rest : Multiset (Call Asked)}
    {stage : Stage Asked} (calls : s.calls = call ::ₘ rest)
    (next : t.calls = { call with stage := stage } ::ₘ rest)
    (hworld : t.world.count name = s.world.count name)
    (hfailed : failed name t.history = failed name s.history)
    (hwon : t.history.countP (Moment.isWon name) = s.history.countP (Moment.isWon name))
    (hverdict : call.request.name = name →
      hasVerdict call.stage = false ∧ hasVerdict stage = false) : Books c v name t := by
  refine hx.same hworld hfailed hwon ?_ fun p hp hname hp' => ?_
  · rw [calls, next, decided_cons, decided_cons]
    by_cases hname : call.request.name = name
    · rw [(hverdict hname).1, (hverdict hname).2]
    · simp [hname]
  · rw [next] at hp
    rw [calls]
    rcases Multiset.mem_cons.mp hp with rfl | hp
    · rw [(hverdict hname).2] at hp'
      cases hp'
    · exact Multiset.mem_cons_of_mem hp

/-- **The resolver is asked**: its verdict goes by the number of runs that have failed. -/
theorem Books.consult (hx : Books c v name s) (hs : s.scene.Sound) {call : Call Asked}
    {rest : Multiset (Call Asked)} {slot : Nat} {signature : Signature}
    (calls : s.calls = call ::ₘ rest) (hname : call.request.name = name)
    (old : call.stage = .running slot signature
      (resolver v c.failures call.request.name signature))
    (next : t.calls = { call with stage := .running slot signature (.answer
      (v.verdict c.failures call.request.name (s.world.count call.request.name))) } ::ₘ rest)
    (world : t.world = call.request.name :: s.world) (history : t.history = s.history) :
    Books c v name t := by
  subst hname
  have hwork : call.stage.phase.work? = some slot := by
    rw [old]
    rfl
  have hrest := decided_rest hs calls hwork
  have hcount : t.world.count call.request.name = s.world.count call.request.name + 1 := by
    rw [world, List.count_cons_self]
  refine ⟨?_, fun p hp hname i j result hstage => ?_, by rw [history]; exact hx.reasons,
    by rw [history]; exact hx.few, by rw [history]; exact hx.enough,
    by rw [history]; exact hx.single⟩
  · have hconsulted := hx.consulted
    rw [calls, decided_cons, hrest, old] at hconsulted
    rw [hcount, next, decided_cons, hrest, history]
    simp only [hasVerdict, resolver, beq_self_eq_true, Bool.and_false, Bool.and_true,
      Bool.false_eq_true, if_false, if_true] at hconsulted ⊢
    omega
  · rw [next] at hp
    rcases Multiset.mem_cons.mp hp with rfl | hp
    · cases hstage
      exact ⟨_, rfl, hcount⟩
    · have hnone := hasVerdict_rest hs calls hwork hp hname
      rw [hstage] at hnone
      cases hnone

/-- What a request with a verdict knows when it ends. -/
theorem Books.at_end (hx : Books c v name s) (hs : s.scene.Sound) (hr : s.scene.Recorded)
    {call : Call Asked} {rest : Multiset (Call Asked)} {slot : Nat} {signature : Signature}
    {result : Except ResolveError (Callable Asked)} (calls : s.calls = call ::ₘ rest)
    (hname : call.request.name = name)
    (old : call.stage = .running slot signature (.answer result)) :
    decided name rest = 0 ∧ s.history.countP (Moment.isWon name) = 0 ∧
      s.world.count name = (failed name s.history).length + 1 ∧
      result = v.verdict c.failures name (failed name s.history).length := by
  subst hname
  have hwork : call.stage.phase.work? = some slot := by
    rw [old]
    rfl
  have hrest := decided_rest hs calls hwork
  have hwon := not_won hs hr calls hwork
  have hcall : call ∈ s.calls := mem_of_eq_cons calls
  obtain ⟨before, hresult, hbefore⟩ := hx.verdict call hcall rfl _ _ _ old
  have hconsulted := hx.consulted
  rw [calls, decided_cons, hrest, hwon, old] at hconsulted
  simp only [hasVerdict, beq_self_eq_true, Bool.and_true, if_true] at hconsulted
  have hlength : before = (failed call.request.name s.history).length := by omega
  rw [hlength] at hresult
  exact ⟨hrest, hwon, hconsulted, hresult⟩

/-- No other request for the name has a verdict then, so none has one afterwards. -/
theorem verdict_of_next {call : Call Asked} {rest : Multiset (Call Asked)} {stage : Stage Asked}
    (hrest : decided name rest = 0) (new : isRunning stage = false)
    {p : Call Asked} (hp : p ∈ ({ call with stage := stage } : Call Asked) ::ₘ rest)
    (hname : p.request.name = name) : hasVerdict p.stage = false := by
  rcases Multiset.mem_cons.mp hp with rfl | hp
  · exact hasVerdict_of_idle new
  · have hnot := Multiset.countP_eq_zero.mp hrest p hp
    simpa [hname] using hnot

/-- **A run fails**: it was one of the first. -/
theorem Books.refuse (hx : Books c v name s) (hs : s.scene.Sound) (hr : s.scene.Recorded)
    {call : Call Asked} {rest : Multiset (Call Asked)} {stage : Stage Asked} {slot : Nat}
    {signature : Signature} {error : ResolveError} (calls : s.calls = call ::ₘ rest)
    (hname : call.request.name = name)
    (old : call.stage = .running slot signature (.answer (.error error)))
    (new : isRunning stage = false) (next : t.calls = { call with stage := stage } ::ₘ rest)
    (world : t.world = s.world)
    (history : t.history = .ended call.ticket name (.returned (.error error)) :: s.history) :
    Books c v name t := by
  obtain ⟨hrest, hwon, hcount, hresult⟩ := hx.at_end hs hr calls hname old
  have hless : (failed name s.history).length < c.failures ∧
      error = v.reason name (failed name s.history).length := by
    unfold Verdicts.verdict at hresult
    split at hresult
    · next hless => exact ⟨hless, Except.error.inj hresult⟩
    · cases hresult
  have hfailed : failed name t.history = error :: failed name s.history := by
    rw [history]
    simp [failed, Moment.failure?]
  have hwon' : t.history.countP (Moment.isWon name) = 0 := by
    rw [history, List.countP_cons, hwon]
    rfl
  refine ⟨?_, fun p hp hp' i j result hstage => ?_, ?_, ?_, ?_, ?_⟩
  · rw [world, hfailed, hwon', next, decided_cons, hrest, hasVerdict_of_idle new, hcount]
    simp
  · rw [next] at hp
    have hnone := verdict_of_next hrest new hp hp'
    rw [hstage] at hnone
    cases hnone
  · rw [hfailed, List.length_cons, List.range_succ, List.map_append, List.reverse_append,
      ← hx.reasons, hless.2]
    rfl
  · rw [hfailed, List.length_cons]
    exact hless.1
  · rw [hwon']
    exact fun h => absurd h (Nat.lt_irrefl 0)
  · rw [hwon']
    exact Nat.zero_le 1

/-- **A run succeeds**: all that should fail had failed. -/
theorem Books.bind (hx : Books c v name s) (hs : s.scene.Sound) (hr : s.scene.Recorded)
    {call : Call Asked} {rest : Multiset (Call Asked)} {stage : Stage Asked} {slot : Nat}
    {signature : Signature} {callable : Callable Asked} {binding : Binding Asked}
    (calls : s.calls = call ::ₘ rest) (hname : call.request.name = name)
    (old : call.stage = .running slot signature (.answer (.ok callable)))
    (new : isRunning stage = false) (next : t.calls = { call with stage := stage } ::ₘ rest)
    (world : t.world = s.world)
    (history : t.history = .ended call.ticket name (.returned (.ok binding)) :: s.history) :
    Books c v name t := by
  obtain ⟨hrest, hwon, hcount, hresult⟩ := hx.at_end hs hr calls hname old
  have henough : (failed name s.history).length = c.failures := by
    have hfew := hx.few
    unfold Verdicts.verdict at hresult
    split at hresult
    · cases hresult
    · next hnot => omega
  have hfailed : failed name t.history = failed name s.history := by
    rw [history]
    exact List.filterMap_cons_none rfl
  have hwon' : t.history.countP (Moment.isWon name) = 1 := by
    rw [history, List.countP_cons, hwon]
    simp [Moment.isWon]
  refine ⟨?_, fun p hp hp' i j result hstage => ?_, ?_, ?_, fun _ => ?_, ?_⟩
  · rw [world, hfailed, hwon', next, decided_cons, hrest, hasVerdict_of_idle new, hcount]
    simp
  · rw [next] at hp
    have hnone := verdict_of_next hrest new hp hp'
    rw [hstage] at hnone
    cases hnone
  · rw [hfailed]
    exact hx.reasons
  · rw [hfailed]
    exact hx.few
  · rw [hfailed]
    exact henough
  · rw [hwon']

/-- A moment that does not end a run for the name. -/
theorem not_counted {m : Moment Asked}
    (hm : ∀ k outcome, m ≠ .ended k name outcome) : m.failure? name = none ∧ m.isWon name = false := by
  cases m with
  | ended k other outcome =>
    have hname : other ≠ name := by
      rintro rfl
      exact hm k outcome rfl
    cases outcome with
    | returned answer => cases answer <;> simp [Moment.failure?, Moment.isWon, hname]
    | panicked cause => exact ⟨rfl, rfl⟩
    | stuck => exact ⟨rfl, rfl⟩
  | _ => exact ⟨rfl, rfl⟩

/-- A turn of a request for another name changes nothing that is counted for the name. -/
theorem Turn.other {call : Call Asked} {stage : Stage Asked} {change : Change Asked}
    (h : Turn c v s call stage change) (hname : call.request.name ≠ name) :
    change.world.count name = s.world.count name ∧
      ∀ m ∈ change.moments, ∀ k outcome, m ≠ .ended k name outcome := by
  cases h with
  | quiet old new world moments =>
    refine ⟨by rw [world], fun m hm k outcome hend => ?_⟩
    have hquiet := moments m hm
    rw [hend] at hquiet
    cases hquiet
  | accept old text new world moments =>
    exact ⟨by rw [world], by simp [moments]⟩
  | reject old text new world moments =>
    exact ⟨by rw [world], by simp [moments, hname]⟩
  | consult old new world moments =>
    refine ⟨?_, by simp [moments]⟩
    rw [world, List.count_cons_of_ne hname]
  | refuse old new world moments =>
    exact ⟨by rw [world], by simp [moments, hname]⟩
  | bind old new world moments =>
    exact ⟨by rw [world], by simp [moments, hname]⟩

/-- **Every step keeps the books**, if the text of the contest is a signature. -/
theorem Books.step {signature : Signature} (hparse : Signature.parse c.text = .ok signature)
    (h : Play s t) (hs : s.scene.Sound) (hr : s.scene.Recorded) (hf : Fair c v s)
    (hx : Books c v name s) : Books c v name t := by
  cases h with
  | ask pending calls world history =>
    refine hx.same (by rw [world]) ?_ ?_ ?_ fun p hp hname hp' => ?_
    · rw [history]
      exact List.filterMap_cons_none rfl
    · rw [history, List.countP_cons]
      rfl
    · rw [calls, decided_cons]
      simp [hasVerdict]
    · rw [calls] at hp
      rcases Multiset.mem_cons.mp hp with rfl | hp
      · cases hp'
      · exact hp
  | @go call rest stage change pending calls next shift world history =>
    have hcall : call ∈ s.calls := mem_of_eq_cons calls
    have hturn : Turn c v s call stage change := turn_of_shift shift (hf.calls call hcall)
      fun slot binding hseat hcell => hf.agree hs hr hcall hseat hcell
    -- a request that ends no run for the name and has no verdict for it
    have hpass : change.world.count name = s.world.count name →
        (∀ m ∈ change.moments, ∀ k outcome, m ≠ .ended k name outcome) →
        (call.request.name = name → hasVerdict call.stage = false ∧ hasVerdict stage = false) →
        Books c v name t := by
      intro hworld hmoments hverdict
      refine hx.pass calls next (by rw [world, hworld]) ?_ ?_ hverdict
      · rw [history]
        exact filterMap_reverse_append (fun m hm => (not_counted (hmoments m hm)).1) _
      · rw [history]
        exact countP_reverse_append (fun m hm => (not_counted (hmoments m hm)).2) _
    by_cases hname : call.request.name = name
    · subst hname
      cases hturn with
      | quiet old new hworld moments =>
        refine hpass (by rw [hworld]) (fun m hm k outcome hend => ?_) fun _ =>
          ⟨hasVerdict_of_idle old, hasVerdict_of_idle new⟩
        have hquiet := moments m hm
        rw [hend] at hquiet
        cases hquiet
      | accept old text new hworld moments =>
        exact hpass (by rw [hworld]) (by simp [moments]) fun _ =>
          ⟨hasVerdict_of_idle old, by rw [new]; rfl⟩
      | reject old text new hworld moments =>
        rw [hparse] at text
        cases text
      | consult old new hworld moments =>
        rw [new] at next
        rw [moments] at history
        exact hx.consult hs calls rfl old next (world.trans hworld) history
      | refuse old new hworld moments =>
        rw [moments] at history
        exact hx.refuse hs hr calls rfl old new next (world.trans hworld) history
      | bind old new hworld moments =>
        rw [moments] at history
        exact hx.bind hs hr calls rfl old new next (world.trans hworld) history
    · obtain ⟨hworld, hmoments⟩ := hturn.other hname
      exact hpass hworld hmoments fun h => absurd h hname
  | @leave call slot outcome pending calls stage world history =>
    refine hx.same (by rw [world]) ?_ ?_ ?_ fun p hp hname hp' => ?_
    · rw [history]
      exact List.filterMap_cons_none rfl
    · rw [history, List.countP_cons]
      rfl
    · rw [calls, decided_cons, stage]
      simp [hasVerdict]
    · rw [calls]
      exact Multiset.mem_cons_of_mem hp

end Contest

end NativeLink
