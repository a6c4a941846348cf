import NativeLink.Proofs.Interleaving.Origin
import NativeLink.Proofs.Interleaving.Record
import NativeLink.Proofs.Session.Log
import NativeLink.Proofs.Session.Residue

/-!
# What the observers of a cache say

A cache can be asked for the binding of a name, whether a name is bound, which names are bound, how
many they are, and whether there are any.  Each of these goes through the slots by itself, and the
slots include empty ones that a panic has left and busy ones whose names are being resolved.

`Table.Coherent` says that the answers fit together.  It follows from well-formedness alone: a slot
that is not bound has no binding to be found, so none of the observers counts it.  What a binding
has in it is a matter of how it was made.  `Binding.MadeFrom` lists that, and it holds because the
signature was read from the text of a request.

So both hold wherever the table is well-formed and its bindings have a known origin: at every point
of a history on one thread, where the origin is an attempt (`Table.Accounted`), and in every state
that many threads can reach, where it is a request that was asked (`Interleaving.Scene.Recorded`).
In the second case the request is known by its ticket, and so has one text (`AskedOnce`).
-/

namespace NativeLink

variable {σ : Type}

/-! ## What a binding has in it -/

/-- The binding is what a request for `name` under the signature `text` makes. -/
structure Binding.MadeFrom (name text : String) (b : Binding σ) : Prop where
  name_eq : b.name = name
  parsed : Signature.parse text = .ok b.signature
  params_ne_void : .void ∉ b.signature.params
  arity_eq : b.arity = b.signature.params.length
  canonical_eq : b.canonical = b.signature.text
  accepts : b.isBoundWith text = true

/-- **A text that was read decides what is in the binding.** -/
theorem Binding.madeFrom_of_parse {name text : String} {b : Binding σ} (hname : b.name = name)
    (hcanonical : b.canonical = b.signature.text)
    (hparse : Signature.parse text = .ok b.signature) : b.MadeFrom name text where
  name_eq := hname
  parsed := hparse
  params_ne_void := Signature.void_not_mem_of_parse hparse
  arity_eq := rfl
  canonical_eq := hcanonical
  accepts := isBoundWith_iff_or.mpr (.inr hparse)

theorem Table.MadeBy.madeFrom {name : String} {b : Binding σ} {a : Attempt σ}
    (h : Table.MadeBy name b a) :
    a = ⟨name, a.text, .returned (.ok b)⟩ ∧ b.MadeFrom name a.text := by
  obtain ⟨rfl, houtcome, id, signature, callable, hparse, rfl⟩ := h
  refine ⟨?_, Binding.madeFrom_of_parse rfl rfl hparse⟩
  rw [← houtcome]

/-! ## Observers -/

namespace Table

/-- The observers of a table agree. -/
structure Coherent (t : Table σ) : Prop where
  sorted : t.names.Pairwise (· < ·)
  size_eq : t.size = t.names.length
  isEmpty_iff : t.isEmpty = true ↔ t.names = []
  contains_iff_get? : ∀ name, t.contains name = true ↔ ∃ b, t.get? name = some b
  contains_iff_mem : ∀ name, t.contains name = true ↔ name ∈ t.names

theorem length_names (t : Table σ) : t.names.length = t.size := List.length_mergeSort _

/-- In ascending order and each listed once, the names ascend strictly. -/
theorem WellFormed.names_strict {t : Table σ} (h : t.WellFormed) : t.names.Pairwise (· < ·) := by
  refine (t.names_sorted.and h.nodup_names).imp fun {a b} hab => ?_
  exact String.not_le.mp fun hba => hab.2 (String.le_antisymm hab.1 hba)

/-- **The observers of a well-formed table agree.** -/
theorem WellFormed.coherent {t : Table σ} (h : t.WellFormed) : t.Coherent where
  sorted := h.names_strict
  size_eq := t.length_names.symm
  isEmpty_iff := by rw [isEmpty, ← t.length_names, beq_iff_eq, List.length_eq_zero_iff]
  contains_iff_get? _ := Option.isSome_iff_exists
  contains_iff_mem := h.contains_iff_mem

end Table

/-! ## The text of a request -/

namespace Interleaving

/-- A ticket is given out once, to a request for one name with one text. -/
structure Scene.AskedOnce (x : Scene σ) : Prop where
  past : ∀ k name text, .asked k name text ∈ x.history → k < x.tickets
  single : ∀ k name text, .asked k name text ∈ x.history →
    ∀ other requested, .asked k other requested ∈ x.history → other = name ∧ requested = text

namespace Scene

variable {x y : Scene σ}

theorem askedOnce_start : (start : Scene σ).AskedOnce :=
  ⟨nofun, nofun⟩

/-- **A step asks for something under a new ticket**, or asks for nothing. -/
theorem AskedOnce.step (h : Step x y) (hx : x.AskedOnce) : y.AskedOnce := by
  cases h with
  | ask name text =>
    refine ⟨fun k other requested hm => ?_, fun k name' text' hm other requested ho => ?_⟩
    · rcases List.mem_cons.mp hm with heq | hm
      · cases heq
        exact Nat.lt_succ_self _
      · exact Nat.lt_succ_of_lt (hx.past k other requested hm)
    · -- what was asked before has another ticket
      rcases List.mem_cons.mp hm with heq | hm <;> rcases List.mem_cons.mp ho with heq' | ho
      · cases heq
        cases heq'
        exact ⟨rfl, rfl⟩
      · cases heq
        exact absurd (hx.past _ other requested ho) (Nat.lt_irrefl _)
      · cases heq'
        exact absurd (hx.past _ name' text' hm) (Nat.lt_irrefl _)
      · exact hx.single k name' text' hm other requested ho
  | _ =>
    exact ⟨fun k name text hm => hx.past k name text (by simpa using hm),
      fun k name text hm other requested ho =>
        hx.single k name text (by simpa using hm) other requested (by simpa using ho)⟩

end Scene

theorem askedOnce_of_reaches {world : σ} {threads : List (List (Request σ))} {s : State σ}
    (h : Reaches (.start world threads) s) : s.scene.AskedOnce :=
  invariant_of_reaches Scene.askedOnce_start (fun _ _ hstep _ hx => hx.step hstep) h

/-- The canonical text of a binding that is found is that of its signature. -/
theorem canonical_of_reaches {world : σ} {threads : List (List (Request σ))} {s : State σ}
    (h : Reaches (.start world threads) s) {name : String} {b : Binding σ}
    (hb : s.table.get? name = some b) : b.canonical = b.signature.text := by
  have hoffered : s.Offered fun _ _ _ => True := offered_of_reaches h fun _ _ request _ signature =>
    (request.work signature).yields_anything request.name signature
  exact (hoffered.table.get? hb).canonical

end Interleaving

/-! ## Every state of a cache -/

namespace Table

open Interleaving

/-- **The observers agree in every state, and what is bound was made from its request.**  The states
are those at any point of a history on one thread, also inside the resolvers, and those that
threads at work on one cache can reach. -/
theorem observers_agree :
    (∀ (world : σ) (h : History σ), ∀ v ∈ h.snapshots [] (.start world),
      v.session.table.Coherent ∧
        ∀ name b, v.session.table.get? name = some b → ∃ text,
          ⟨name, text, .returned (.ok b)⟩ ∈ v.attempts ∧ b.MadeFrom name text) ∧
    ∀ (world : σ) (threads : List (List (Request σ))) (s : State σ),
      Reaches (.start world threads) s → s.table.Coherent ∧
        ∀ name b, s.table.get? name = some b → ∃ k text,
          .asked k name text ∈ s.history ∧ .ended k name (.returned (.ok b)) ∈ s.history ∧
          (∀ other requested, .asked k other requested ∈ s.history →
            other = name ∧ requested = text) ∧
          b.MadeFrom name text := by
  refine ⟨fun world h v hv => ?_, fun world threads s hs => ?_⟩
  · have haccounted := h.snapshots_accounted accounted_empty v hv
    refine ⟨haccounted.wellFormed.coherent, fun name b hb => ?_⟩
    obtain ⟨a, ha, hmade⟩ := haccounted.made name b hb
    obtain ⟨heq, hfrom⟩ := hmade.madeFrom
    exact ⟨a.text, heq ▸ ha, hfrom⟩
  · refine ⟨(sound_of_reaches hs).wellFormed.coherent, fun name b hb => ?_⟩
    obtain ⟨hname, -, k, text, hasked, hended, hparse⟩ :=
      (recorded_of_reaches hs).made name b hb
    exact ⟨k, text, hasked, hended, (askedOnce_of_reaches hs).single k name text hasked,
      Binding.madeFrom_of_parse hname (canonical_of_reaches hs hb) hparse⟩

/-- A panic, and then a resolver that asks for another name before it gives its answer. -/
def midway : History Unit :=
  [.request "@p" "():VOID" fun _ => .panic (.plain "given up"),
    .request "@g" "():VOID" fun _ =>
      .request "@f" " ( POINTER ) : VOID" (fun _ =>
          .answer (.ok fun _ world => (.returned (.ok .void), [], world))) fun _ =>
        .look "@g" fun _ => .answer (.error (.symbolNotFound "@g"))]

/-- From inside the resolver of `@g` one sees three slots and one name, that of `@f`, which goes
with the text it was asked for with. -/
theorem observers_agree_midway :
    ∃ v ∈ midway.snapshots [] (.start ()), v.resolving = ["@g"] ∧
      v.session.table.index.map Prod.fst = ["@f", "@g", "@p"] ∧
      v.session.table.names = ["@f"] ∧ v.session.table.isEmpty = false ∧
      ∃ b, v.session.table.get? "@f" = some b ∧ b.arity = 1 ∧ b.canonical = "(POINTER):VOID" ∧
        b.isBoundWith " ( POINTER ) : VOID" = true := by
  have hseen : ((midway.snapshots [] (.start ()))[5]?).map (fun v =>
      (v.resolving, v.session.table.index.map Prod.fst, v.session.table.size)) =
        some (["@g"], ["@f", "@g", "@p"], 1) := by decide +kernel
  have hfound : ((midway.snapshots [] (.start ()))[5]?).map (fun v =>
      ((v.session.table.get? "@f").map fun b => (b.arity, b.canonical),
        v.attempts.map fun a => (a.name, a.text))) =
        some (some (1, "(POINTER):VOID"),
          [("@p", "():VOID"), ("@f", " ( POINTER ) : VOID")]) := by decide +kernel
  obtain ⟨v, hv, hshown⟩ := Option.map_eq_some_iff.mp hseen
  obtain ⟨hresolving, hkeys, hsize⟩ := by simpa only [Prod.mk.injEq] using hshown
  rw [hv, Option.map_some] at hfound
  obtain ⟨hbinding, hattempts⟩ := Prod.mk.inj (Option.some.inj hfound)
  obtain ⟨hcoherent, hmade⟩ := observers_agree.1 () midway v (List.mem_of_getElem? hv)
  obtain ⟨b, hb, hparts⟩ := Option.map_eq_some_iff.mp hbinding
  obtain ⟨harity, hcanonical⟩ := Prod.mk.inj hparts
  have hnames : v.session.table.names = ["@f"] := by
    obtain ⟨name, hname⟩ := List.length_eq_one_iff.mp (hcoherent.size_eq.symm.trans hsize)
    have hmem := (hcoherent.contains_iff_mem "@f").mp ((hcoherent.contains_iff_get? _).mpr ⟨b, hb⟩)
    rw [hname] at hmem ⊢
    rw [List.mem_singleton.mp hmem]
  have hnotEmpty : v.session.table.isEmpty = false :=
    Bool.eq_false_iff.mpr fun h => absurd (hcoherent.isEmpty_iff.mp h) (by simp [hnames])
  refine ⟨v, List.mem_of_getElem? hv, hresolving, hkeys, hnames, hnotEmpty, b, hb, harity,
    hcanonical, ?_⟩
  obtain ⟨text, hmem, hfrom⟩ := hmade "@f" b hb
  have htext : ("@f", text) ∈ v.attempts.map fun a => (a.name, a.text) :=
    List.mem_map_of_mem hmem
  rw [hattempts] at htext
  obtain rfl : text = " ( POINTER ) : VOID" := by simpa using htext
  exact hfrom.accepts

end Table

end NativeLink
