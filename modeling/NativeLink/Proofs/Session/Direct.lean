import NativeLink.Proofs.Client.Birth

/-!
# Resolvers that decide at once

The recording resolver and the foreign one make no requests of their own.  What they answer, what
they tell and how they leave the world depends on the name, the signature and the world, and on
nothing in the cache (`Resolver.Decides`).  With such a resolver a request can be read like a
function: `Session.Decided` lists the four things that can come of it, each with all that it
changes, and `decided_of_resolve` says that in a table in which nothing is being resolved every
request is one of them.  In particular it returns, and leaves such a table behind.

So all tables of a client over such a resolver stay free of names that are being resolved
(`Client.attended_obeyAll`), and none of its requests is ever stuck.
-/

namespace NativeLink

variable {σ : Type}

/-- What a resolver answers and tells, and the world it leaves. -/
structure Verdict (σ : Type) where
  result : Except ResolveError (Callable σ)
  events : List Event
  world : σ

/-- The resolver makes no requests: it answers at once, as `decide` has it. -/
def Resolver.Decides (resolver : Resolver σ) (decide : String → Signature → σ → Verdict σ) : Prop :=
  ∀ name signature (s : Session σ), (resolver name signature).run s =
    (.returned (decide name signature s.world).result,
      { s with
        world := (decide name signature s.world).world
        log := s.log ++ (decide name signature s.world).events })

namespace Session

/-- What a request for `name` changes, whatever comes of it: `bound` is what the name is bound to
in the end. -/
structure Becomes (s : Session σ) (name : String) (bound : Option (Binding σ)) (world : σ)
    (fresh : Nat) (events : List Event) (u : Session σ) : Prop where
  attended : u.table.Attended []
  get? : ∀ other, u.table.get? other = if other = name then bound else s.table.get? other
  world : u.world = world
  fresh : u.fresh = fresh
  log : u.log = s.log ++ events

section

variable (decide : String → Signature → σ → Verdict σ) (name text : String)
  (s : Session σ)

/-- What can come of a request whose resolver decides at once. -/
inductive Decided : Outcome (Answer σ) → Session σ → Prop where
  | found {b : Binding σ} (bound : s.table.get? name = some b) :
    Decided (.returned (.ok b)) (s.tell (b.conflict text))
  | misread {error : ResolveError} {u : Session σ} (unbound : s.table.get? name = none)
    (parsed : Signature.parse text = .error error)
    (becomes : s.Becomes name none s.world s.fresh [] u) :
    Decided (.returned (.error error)) u
  | refused {signature : Signature} {error : ResolveError} {u : Session σ}
    (unbound : s.table.get? name = none) (parsed : Signature.parse text = .ok signature)
    (decided : (decide name signature s.world).result = .error error)
    (becomes : s.Becomes name none (decide name signature s.world).world s.fresh
      (.resolving name signature :: (decide name signature s.world).events) u) :
    Decided (.returned (.error error)) u
  | accepted {signature : Signature} {callable : Callable σ} {u : Session σ}
    (unbound : s.table.get? name = none) (parsed : Signature.parse text = .ok signature)
    (decided : (decide name signature s.world).result = .ok callable)
    (becomes : s.Becomes name (some (.make s.fresh name signature callable))
      (decide name signature s.world).world (s.fresh + 1)
      (.resolving name signature :: (decide name signature s.world).events) u) :
    Decided (.returned (.ok (.make s.fresh name signature callable))) u

end

section

variable {decide : String → Signature → σ → Verdict σ} {resolver : Resolver σ}
  {name text : String} {s u : Session σ} {outcome : Outcome (Answer σ)}

/-- A request that returns leaves nothing in the middle of being resolved. -/
theorem attended_of_resolve (hs : s.table.Attended [])
    (h : resolve resolver name text s = (outcome, u)) (ended : outcome ≠ .stuck) :
    u.table.Attended [] := by
  obtain ⟨hevolves, hcourse⟩ := resolve_takes resolver name text hs.wellFormed h ended
  exact ⟨hcourse.grows.wellFormed, fun name hb => hs.busy name (hcourse.grows.busy hb),
    hevolves.made hs.wellFormed hs.made⟩

/-- **Every request is decided.** -/
theorem decided_of_resolve (hR : resolver.Decides decide) (hs : s.table.Attended [])
    (h : resolve resolver name text s = (outcome, u)) : Decided decide name text s outcome u := by
  have hwf := hs.wellFormed
  cases hname : s.table.get? name with
  | some b =>
    have hfound : resolve resolver name text s = _ := request_of_get? hname text _
    rw [hfound] at h
    cases h
    exact .found hname
  | none =>
    have hempty := Table.cellOf_of_unbound hname fun hb => absurd (hs.busy name hb) (by simp)
    -- the cells after the request, from those of its last change of a cell
    have hcells : ∀ {t : Table σ} (c : Cell σ),
        (∀ other, t.cellOf other =
          ((s.table.opened name).setCell (s.table.acquire name).1 c).cellOf other) →
        ∀ other, t.get? other = if other = name then c.binding? else s.table.get? other := by
      intro t c ht other
      have hgrows := Table.Grows.refl (hwf.opened name)
      rw [Table.get?_eq_cellOf, ht, hgrows.cellOf_settled hwf, hwf.cellOf_opened,
        Table.get?_eq_cellOf]
      split <;> rfl
    cases hparse : Signature.parse text with
    | error error =>
      obtain ⟨hsame, hworld, hlog⟩ := request_of_error hwf hempty hparse h
      have hcell := (cellOf_eq_cell_acquire s.table name).symm.trans hempty
      have hrequest : resolve resolver name text s = (.returned (.error error),
          (s.withTable (s.table.acquire name).2).abandoned name (s.table.acquire name).1) := by
        simp only [resolve, request, hcell, hparse]
        rfl
      have hended := attended_of_resolve hs h
      rw [hrequest] at h
      cases h
      refine .misread hname hparse ⟨hended (by simp), fun other => ?_, rfl, rfl, by simp [hlog]⟩
      rw [Table.get?_eq_cellOf, hsame, ← Table.get?_eq_cellOf]
      split
      · next ho => rw [ho, hname]
      · rfl
    | ok signature =>
      have hrun := hR name signature (s.begun name signature)
      have hlog : ∀ events, s.log ++ [.resolving name signature] ++ events =
          s.log ++ .resolving name signature :: events := fun _ => by simp
      have hended := attended_of_resolve hs h
      cases hresult : (decide name signature s.world).result with
      | ok callable =>
        rw [show (s.begun name signature).world = s.world from rfl, hresult] at hrun
        have hrequest : resolve resolver name text s = _ := request_of_run hempty hparse hrun
        rw [hrequest] at h
        cases h
        exact .accepted hname hparse hresult ⟨hended (by simp),
          hcells (.bound (.make s.fresh name signature callable)) fun _ => Table.cellOf_release ..,
          rfl, rfl, hlog _⟩
      | error error =>
        rw [show (s.begun name signature).world = s.world from rfl, hresult] at hrun
        have hrequest : resolve resolver name text s = _ := request_of_failed hempty hparse hrun
        rw [hrequest] at h
        cases h
        refine .refused hname hparse hresult ⟨hended (by simp), hcells .empty fun other => ?_, rfl,
          rfl, hlog _⟩
        have hgrows := Table.Grows.refl (hwf.opened name)
        exact Table.cellOf_abandoned (hgrows.wellFormed.inside (hgrows.position?_of_opened hwf))
          name other

theorem Decided.attended (hs : s.table.Attended []) (h : Decided decide name text s outcome u) :
    u.table.Attended [] := by
  cases h with
  | found bound => exact hs
  | misread unbound parsed becomes => exact becomes.attended
  | refused unbound parsed decided becomes => exact becomes.attended
  | accepted unbound parsed decided becomes => exact becomes.attended

/-- **A request is never stuck.** -/
theorem Decided.returned (h : Decided decide name text s outcome u) :
    ∃ answer, outcome = .returned answer := by
  cases h <;> exact ⟨_, rfl⟩

theorem serve_attended (hR : resolver.Decides decide) (requests : List (String × String))
    (hs : s.table.Attended []) : (serve resolver requests s).table.Attended [] :=
  serve_keeps (P := fun s => s.table.Attended [])
    (fun _ _ _ hs => (decided_of_resolve hR hs rfl).attended hs) requests hs

/-- Requests are served to the last one. -/
theorem serve_cons (hR : resolver.Decides decide) (hs : s.table.Attended [])
    (rest : List (String × String)) :
    serve resolver ((name, text) :: rest) s =
      serve resolver rest (resolve resolver name text s).2 := by
  rcases hresolve : resolve resolver name text s with ⟨outcome, u⟩
  obtain ⟨answer, rfl⟩ := (decided_of_resolve hR hs hresolve).returned
  rw [serve, hresolve]

end

end Session

namespace Client

variable {decide : String → Signature → σ → Verdict σ} {c d : Client σ} {command : Command σ}

/-! ## What is known of a binding -/

/-- The world after a request is as it was, or as the resolver has left it. -/
theorem world_of_resolve {resolver : Resolver σ} {name text : String} {s u : Session σ}
    {outcome : Outcome (Answer σ)} (hR : resolver.Decides decide)
    (h : Session.resolve resolver name text s = (outcome, u)) :
    u.world = s.world ∨ ∃ signature, u.world = (decide name signature s.world).world := by
  have hrun : ∀ {signature outcome v},
      (resolver name signature).run (s.begun name signature) = (outcome, v) →
        v.world = (decide name signature s.world).world := by
    intro signature outcome v run
    rw [hR] at run
    cases run
    rfl
  cases Session.requested_of_request h with
  | hit cell => exact .inl rfl
  | blocked cell => exact .inl rfl
  | refused cell parsed => exact .inl rfl
  | accepted cell parsed run => exact .inr ⟨_, (hrun run :)⟩
  | failed cell parsed run => exact .inr ⟨_, (hrun run :)⟩
  | panicked cell parsed run => exact .inr ⟨_, (hrun run :)⟩
  | stuck cell parsed run => exact .inr ⟨_, (hrun run :)⟩

/-- **A binding was made from what the resolver decided**, and for a request for its name under a
text that denotes its signature.  What the decision has to do with the world must hold before it
if it holds after it. -/
theorem endows_of_decides {resolver : Resolver σ} {Q : σ → Binding σ → Prop}
    (hR : resolver.Decides decide)
    (made : ∀ id name signature world callable,
      (decide name signature world).result = .ok callable →
        Q world (.make id name signature callable))
    (stable : ∀ name signature world b, Q (decide name signature world).world b → Q world b) :
    Endows (fun world requests b => Q world b ∧
      ∃ text, (b.name, text) ∈ requests ∧ Signature.parse text = .ok b.signature) resolver := by
  intro requests
  induction requests with
  | nil => exact fun s _ => .refl s
  | cons request rest ih =>
    intro s hs
    obtain ⟨name, text⟩ := request
    -- one request makes a binding of its own at most
    have hone : ∀ {outcome u}, Session.resolve resolver name text s = (outcome, u) →
        s.Mints (fun b => Q s.world b ∧ ∃ asked, (b.name, asked) ∈ (name, text) :: rest ∧
          Signature.parse asked = .ok b.signature) u := by
      intro outcome u h
      refine Session.request_mints hs h (fun signature => ?_) fun signature callable v parsed run =>
        ⟨?_, text, List.mem_cons_self, parsed⟩
      · rw [hR]
        exact .of_get? rfl fun _ _ => id
      · rw [hR] at run
        simp only [Prod.mk.injEq, Outcome.returned.injEq] at run
        exact made _ name signature s.world callable run.1
    rw [Session.serve]
    rcases hresolve : Session.resolve resolver name text s with ⟨answer | cause | _, u⟩
    · have hwf := (Session.resolve_leads resolver hs hresolve).evolves.wellFormed hs
      refine (hone hresolve).trans ((ih u hwf).mono fun b hmade => ?_)
      obtain ⟨hb, asked, hmem, hparse⟩ := hmade
      refine ⟨?_, asked, List.mem_cons_of_mem _ hmem, hparse⟩
      rcases world_of_resolve hR hresolve with hworld | ⟨signature, hworld⟩
      · exact hworld ▸ hb
      · exact stable name signature s.world b (hworld ▸ hb)
    · exact hone hresolve
    · exact hone hresolve

/-! ## Histories -/

/-- Nothing is being resolved in any context. -/
def Attended (c : Client σ) : Prop := ∀ i t, c.contexts.table? i = some t → t.Attended []

theorem Attended.wellFormed (h : c.Attended) : c.contexts.WellFormed :=
  fun i t ht => (h i t ht).wellFormed

theorem Did.attended (hR : c.contexts.resolver.Decides decide) (hc : c.Attended)
    (h : Did c command d) : d.Attended := by
  intro j t ht
  cases h with
  | added =>
    rw [Contexts.table?_add] at ht
    split at ht
    · cases ht
      exact Table.attended_empty
    · exact hc j t ht
  | dropped i =>
    rw [Contexts.table?_drop] at ht
    split at ht
    · cases ht
    · exact hc j t ht
  | handed asks call contexts hands =>
    rw [contexts] at ht
    exact hc j t ht
  | @served _ i requests t' events _ asks table contexts hands =>
    rw [contexts, Contexts.table?_leave table] at ht
    split at ht
    · cases ht
      exact Session.serve_attended hR requests (s := c.contexts.session t') (hc i t' table)
    · exact hc j t ht
  | _ => exact hc j t ht

/-- **Between two commands nothing is being resolved.** -/
theorem attended_obeyAll {resolver : Resolver σ} (hR : resolver.Decides decide) (world : σ)
    (history : List (Command σ)) : ((start resolver world).obeyAll history).Attended := by
  induction history using List.reverseRecOn with
  | nil =>
    intro i t ht
    rw [table?_start ht]
    exact Table.attended_empty
  | append_singleton history command ih =>
    have hresolver : ((start resolver world).obeyAll history).contexts.resolver = resolver :=
      resolver_obeyAll (wellFormed_start resolver world) history
    rw [obeyAll_snoc]
    exact (did_of_obey ih.wellFormed command).attended (hresolver ▸ hR) ih

end Client

end NativeLink
