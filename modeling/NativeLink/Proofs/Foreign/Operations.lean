import NativeLink.Proofs.Client.Handed
import NativeLink.Proofs.Foreign.Call
import NativeLink.Proofs.Interleaving.Origin

/-!
# Operations over foreign routines

A binding of a foreign resolver leads to a routine at an address, and calls it under the
signature the name was first bound with.  That need not be the signature an operation
has in mind: whoever binds a name first decides, and the operation is only checked for
its number of arguments.  What the operation comes to is then decided by the kinds the
binding has and the operation passes on.

* Arguments of other kinds: the call is refused at the first of them, nothing is
  called, and the operation ends with a transport defect.
* Arguments of the right kinds: the routine is entered once.  A cast whose result is no
  pointer ends with a defect of its shape after that.

`Invoked`, `Cast` and `Freed` list what can come of a call, one constructor for each
condition on the signature; the conditions exclude each other and leave nothing out.
`Operates` collects all that holds of a binding, and `operates_of_handsOut` says that it
holds of every binding that contexts over a foreign resolver hand out.
-/

namespace NativeLink

variable {π : Type}

namespace Foreign

/-- The callables of a foreign resolver: the routine at an address, prepared for the name and the
signature that were asked for. -/
def offer (host : Host π) : Offer (Foreign π) := fun name signature callable =>
  ∃ address, callable = Foreign.callable ⟨name, signature, address, host.routineAt address⟩

theorem resolver_yields (host : Host π) : (resolver host).Yields (offer host) := by
  intro name signature f
  dsimp only
  split
  · intro callable h
    cases h
  · next address source _ =>
    intro callable h
    cases h
    exact ⟨address, rfl⟩

/-- The binding leads to the routine at an address. -/
structure LeadsTo (host : Host π) (b : Binding (Foreign π)) (address : Address) : Prop where
  callable : b.callable =
    Foreign.callable ⟨b.name, b.signature, address, host.routineAt address⟩
  noVoid : .void ∉ b.signature.params

theorem leadsTo_of_offered {host : Host π} {b : Binding (Foreign π)} (h : b.Offered (offer host)) :
    ∃ address, LeadsTo host b address := by
  obtain ⟨text, htext⟩ := h.parsed
  obtain ⟨address, hcallable⟩ := h.offered
  exact ⟨address, hcallable, Signature.void_not_mem_of_parse htext⟩

/-! ## What comes of a call -/

section

variable (b : Binding (Foreign π)) (address : Address) (routine : Routine π)

/-- What comes of a call through an invoker: its outcome, what it tells, and the world it
leaves. -/
inductive Invoked (args : List Value) (w : Foreign π) :
    Outcome Value × List Event × Foreign π → Prop where
  | refused {i : Nat} {expected got : Kind}
    (first : FirstDifference b.signature.params (args.map Value.kind) i expected got) :
    Invoked args w (.panicked (.defect (.transport b.name (.argumentKind i expected got))),
      [.nativeCall b.name args, .defect (.transport b.name (.argumentKind i expected got))], w)
  | entered (kinds : args.map Value.kind = b.signature.params) :
    Invoked args w
      (.returned (.ofWord (w.entered routine (args.map Value.word)).1 b.signature.result),
        [.nativeCall b.name args, .foreignCall b.name address],
        (w.entered routine (args.map Value.word)).2)

/-- What comes of a cast with these arguments. -/
inductive Cast (object source target : Address) (hint : UInt64) (w : Foreign π) :
    Outcome Address × List Event × Foreign π → Prop where
  | refused {i : Nat} {expected got : Kind}
    (first : FirstDifference b.signature.params [.pointer, .pointer, .pointer, .uint64] i
      expected got) :
    Cast object source target hint w
      (.panicked (.defect (.transport b.name (.argumentKind i expected got))),
        [.nativeCall b.name [.pointer object, .pointer source, .pointer target, .uint64 hint],
          .defect (.transport b.name (.argumentKind i expected got))], w)
  | misshapen (kinds : b.signature.params = [.pointer, .pointer, .pointer, .uint64])
    (result : b.signature.result ≠ .pointer) :
    Cast object source target hint w
      (.panicked (.defect (.resultShape b.name ⟨b.signature.result⟩)),
        [.nativeCall b.name [.pointer object, .pointer source, .pointer target, .uint64 hint],
          .foreignCall b.name address, .defect (.resultShape b.name ⟨b.signature.result⟩)],
        (w.entered routine [object.raw, source.raw, target.raw, hint]).2)
  | answered (kinds : b.signature.params = [.pointer, .pointer, .pointer, .uint64])
    (result : b.signature.result = .pointer) :
    Cast object source target hint w
      (.returned ⟨(w.entered routine [object.raw, source.raw, target.raw, hint]).1⟩,
        [.nativeCall b.name [.pointer object, .pointer source, .pointer target, .uint64 hint],
          .foreignCall b.name address],
        (w.entered routine [object.raw, source.raw, target.raw, hint]).2)

/-- What comes of the release of an exception object. -/
inductive Freed (object : Address) (w : Foreign π) :
    Outcome Unit × List Event × Foreign π → Prop where
  | refused {expected : Kind} (param : b.signature.params = [expected])
    (differ : expected ≠ .pointer) :
    Freed object w (.panicked (.defect (.transport b.name (.argumentKind 0 expected .pointer))),
      [.nativeCall b.name [.pointer object],
        .defect (.transport b.name (.argumentKind 0 expected .pointer))], w)
  | freed (param : b.signature.params = [.pointer]) :
    Freed object w (.returned (),
      [.nativeCall b.name [.pointer object], .foreignCall b.name address],
      (w.entered routine [object.raw]).2)

end

variable {host : Host π} {b : Binding (Foreign π)} {address : Address}

/-- **Every call through an invoker goes one of two ways.** -/
theorem LeadsTo.invoked (h : LeadsTo host b address) {n : Nat} {invoker : Invoker (Foreign π) n}
    (hb : invoker.binding = b) (args : Vector Value n) (w : Foreign π) :
    Invoked b address (host.routineAt address) args.toList w (invoker.invoke args w) := by
  subst hb
  have hlength : args.toList.length = invoker.binding.signature.params.length := by
    rw [Vector.length_toList]
    exact invoker.arity_eq.symm
  have hkinds : invoker.binding.signature.params.length = (args.toList.map Value.kind).length := by
    rw [List.length_map, hlength]
  rcases FirstDifference.eq_or_exists hkinds with hsame | ⟨i, expected, got, hfirst⟩
  · have hcall := callable_of_kinds
      (f := ⟨invoker.binding.name, invoker.binding.signature, address, host.routineAt address⟩)
      hsame h.noVoid w
    simp only [Invoker.invoke, h.callable, hcall]
    exact .entered hsame
  · have hcall := callable_of_firstDifference
      (f := ⟨invoker.binding.name, invoker.binding.signature, address, host.routineAt address⟩)
      hfirst hlength h.noVoid w
    simp only [Invoker.invoke, h.callable, hcall]
    exact .refused hfirst

/-- **Every cast goes one of three ways.** -/
theorem LeadsTo.cast (h : LeadsTo host b address) {invoker : Invoker (Foreign π) 4}
    (hb : invoker.binding = b) (object source target : Address) (hint : UInt64) (w : Foreign π) :
    Cast b address (host.routineAt address) object source target hint w
      (invoker.cast object source target hint w) := by
  have hinvoked := h.invoked hb
    #v[.pointer object, .pointer source, .pointer target, .uint64 hint] w
  unfold Invoker.cast
  generalize invoker.invoke _ w = reply at hinvoked
  cases hinvoked with
  | refused first => exact .refused first
  | entered kinds =>
    by_cases hresult : b.signature.result = .pointer
    · simp only [hresult, Value.ofWord, Value.asPointer]
      exact .answered kinds.symm hresult
    · have hshape : ∀ word, (Value.ofWord word b.signature.result).asPointer =
          .error ⟨b.signature.result⟩ := fun word => by
        rw [Value.asPointer_of_ne] <;> rw [Value.kind_ofWord]
        exact hresult
      simp only [hshape, raise, Invoker.symbol, hb]
      exact .misshapen kinds.symm hresult

/-- **Every release goes one of two ways.** -/
theorem LeadsTo.freed (h : LeadsTo host b address) {invoker : Invoker (Foreign π) 1}
    (hb : invoker.binding = b) (object : Address) (w : Foreign π) :
    Freed b address (host.routineAt address) object w (invoker.free object w) := by
  have hinvoked := h.invoked hb #v[.pointer object] w
  have hlength : b.signature.params.length = 1 := hb ▸ invoker.arity_eq
  unfold Invoker.free
  generalize invoker.invoke _ w = reply at hinvoked
  cases hinvoked with
  | @refused i expected got first =>
    obtain ⟨kind, hparams⟩ := List.length_eq_one_iff.mp hlength
    rw [hparams] at first
    cases i with
    | zero =>
      cases first.wanted
      cases first.found
      exact .refused hparams (Ne.symm first.differ)
    | succ i => cases first.wanted
  | entered kinds => exact .freed kinds.symm

/-- **The null pointer is fetched by one call.** -/
theorem LeadsTo.nullPointer (h : LeadsTo host b address) {invoker : Invoker (Foreign π) 0}
    (hb : invoker.binding = b) (w : Foreign π) :
    invoker.nullPointer w =
      (.returned (.ofWord (w.entered (host.routineAt address) []).1 b.signature.result),
        [.nativeCall b.name [], .foreignCall b.name address],
        (w.entered (host.routineAt address) []).2) := by
  have hinvoked := h.invoked hb #v[] w
  unfold Invoker.nullPointer
  generalize invoker.invoke _ w = reply at hinvoked
  cases hinvoked with
  | refused first => cases first.found
  | entered kinds => rfl

/-! ## The number of arguments is never at fault -/

/-- The outcome is not a complaint about the number of arguments. -/
def Uncounted {α : Type} (outcome : Outcome α) : Prop :=
  ∀ symbol expected got,
    outcome ≠ .panicked (.defect (.transport symbol (.argumentCount expected got)))

section

variable {routine : Routine π} {w : Foreign π}

theorem Invoked.uncounted {args : List Value} {reply : Outcome Value × List Event × Foreign π}
    (h : Invoked b address routine args w reply) : Uncounted reply.1 := by
  cases h <;> exact fun _ _ _ => nofun

theorem Cast.uncounted {object source target : Address} {hint : UInt64}
    {reply : Outcome Address × List Event × Foreign π}
    (h : Cast b address routine object source target hint w reply) : Uncounted reply.1 := by
  cases h <;> exact fun _ _ _ => nofun

theorem Freed.uncounted {object : Address} {reply : Outcome Unit × List Event × Foreign π}
    (h : Freed b address routine object w reply) : Uncounted reply.1 := by
  cases h <;> exact fun _ _ _ => nofun

end

/-! ## Bindings that are handed out -/

/-- What holds of the operations over a binding that leads to the routine at an address. -/
structure Operates (host : Host π) (b : Binding (Foreign π)) (address : Address) : Prop where
  /-- An invoker with `n` arguments can be made exactly if `n` is the arity. -/
  made : ∀ n, (∃ invoker : Invoker (Foreign π) n, Invoker.make n b = .ok invoker) ↔ b.arity = n
  refused : ∀ n, b.arity ≠ n → Invoker.make n b = .error (.arityMismatch b.name b.arity n)
  invoked : ∀ {n : Nat} {invoker : Invoker (Foreign π) n}, Invoker.make n b = .ok invoker →
    ∀ args w, Invoked b address (host.routineAt address) args.toList w (invoker.invoke args w) ∧
      Uncounted (invoker.invoke args w).1
  cast : ∀ {invoker}, Invoker.make Operation.dynamicCast.arity b = .ok invoker →
    ∀ object source target hint w,
      Cast b address (host.routineAt address) object source target hint w
        (invoker.cast object source target hint w) ∧
      Uncounted (invoker.cast object source target hint w).1
  freed : ∀ {invoker}, Invoker.make Operation.freeException.arity b = .ok invoker →
    ∀ object w, Freed b address (host.routineAt address) object w (invoker.free object w) ∧
      Uncounted (invoker.free object w).1
  nullPointer : ∀ {invoker}, Invoker.make Operation.nullPointer.arity b = .ok invoker →
    ∀ w, invoker.nullPointer w =
      (.returned (.ofWord (w.entered (host.routineAt address) []).1 b.signature.result),
        [.nativeCall b.name [], .foreignCall b.name address],
        (w.entered (host.routineAt address) []).2)

theorem LeadsTo.operates (h : LeadsTo host b address) : Operates host b address where
  made n := by
    constructor
    · rintro ⟨invoker, hmake⟩
      rw [← Invoker.make_eq_ok_iff.mp hmake]
      exact invoker.arity_eq
    · exact fun harity => ⟨⟨b, harity⟩, Invoker.make_eq_ok_iff.mpr rfl⟩
  refused n hne := by rw [Invoker.make, dif_neg hne]
  invoked hmake args w := by
    have hinvoked := h.invoked (Invoker.make_eq_ok_iff.mp hmake) args w
    exact ⟨hinvoked, hinvoked.uncounted⟩
  cast hmake object source target hint w := by
    have hcast := h.cast (Invoker.make_eq_ok_iff.mp hmake) object source target hint w
    exact ⟨hcast, hcast.uncounted⟩
  freed hmake object w := by
    have hfreed := h.freed (Invoker.make_eq_ok_iff.mp hmake) object w
    exact ⟨hfreed, hfreed.uncounted⟩
  nullPointer hmake w := h.nullPointer (Invoker.make_eq_ok_iff.mp hmake) w

/-- The bindings that contexts over a foreign resolver hand out, to a client that does whatever it
likes or to threads that ask at the same time. -/
inductive HandsOut (host : Host π) (b : Binding (Foreign π)) : Prop where
  | toClient {f : Foreign π} {commands : List (Command (Foreign π))}
    (hands : ((Client.start (resolver host) f).obeyAll commands).Hands b)
  | toThread {f : Foreign π} {threads : List (List (Request (Foreign π)))}
    {s : Interleaving.State (Foreign π)} {ticket : Nat} {name : String}
    (requests : ∀ requests ∈ threads, ∀ request ∈ requests,
      request.work = resolver host request.name)
    (reaches : Interleaving.Reaches (.start f threads) s)
    (answered : .answered ticket name (.returned (.ok b)) ∈ s.history)

theorem HandsOut.offered (h : HandsOut host b) : b.Offered (offer host) := by
  cases h with
  | toClient hands => exact Client.offered_of_hands (resolver_yields host) hands
  | toThread requests reaches answered =>
    refine (Interleaving.offered_of_reaches reaches fun all hall request hrequest => ?_).answers
      answered
    intro signature
    rw [requests all hall request hrequest]
    exact resolver_yields host request.name signature

/-- **Every binding that is handed out operates** on the routine at an address, under the signature
it was first bound with. -/
theorem operates_of_handsOut (h : HandsOut host b) : ∃ address, Operates host b address := by
  obtain ⟨address, hleads⟩ := leadsTo_of_offered h.offered
  exact ⟨address, hleads.operates⟩

/-- A host whose one routine answers its first argument and counts its calls. -/
def echoHost : Host Nat where
  load path := .error path
  exports _ := none
  routineAt _ words calls := (words.headD 0, calls + 1)
  nullPointer := .null

/-- A client that binds the routine of a cast with a wrong third argument, and casts with it
nevertheless. -/
def echoClient : Client (Foreign Nat) :=
  (Client.start (resolver echoHost)
      ⟨(Symbols.empty echoHost.exports false).register "__dynamic_cast" ⟨16⟩, [], 0⟩).obeyAll
    [.resolve 0 "@__dynamic_cast" "(POINTER,POINTER,SINT32,UINT64):POINTER",
      .construct 0 .dynamicCast]

/-- The operation is made, over the signature that came first, and no cast gets through. -/
theorem operates_echoClient : ∃ m ∈ echoClient.operations,
    m.invoker.binding.signature = ⟨[.pointer, .pointer, .sint32, .uint64], .pointer⟩ ∧
      ∀ object source target hint w, ∃ invoker,
        Invoker.make 4 m.invoker.binding = .ok invoker ∧
        (invoker.cast object source target hint w).1 = .panicked (.defect (.transport
          m.invoker.binding.name (.argumentKind 2 .sint32 .pointer))) := by
  have hsignatures : (echoClient.operations.map fun m => m.invoker.binding.signature) =
      [⟨[.pointer, .pointer, .sint32, .uint64], .pointer⟩] := by decide +kernel
  obtain ⟨m, hm, hsignature⟩ := List.mem_map.mp (hsignatures ▸ List.mem_singleton_self _)
  refine ⟨m, hm, hsignature, fun object source target hint w => ?_⟩
  obtain ⟨address, hoperates⟩ := operates_of_handsOut (.toClient (.inr ⟨m, hm, rfl⟩))
  obtain ⟨invoker, hmake⟩ := (hoperates.made 4).mpr (by rw [Binding.arity, hsignature]; rfl)
  obtain ⟨hcast, -⟩ := hoperates.cast hmake object source target hint w
  refine ⟨invoker, hmake, ?_⟩
  generalize invoker.cast object source target hint w = reply at hcast
  cases hcast with
  | refused first =>
    rw [hsignature] at first
    have hplace : FirstDifference [.pointer, .pointer, .sint32, .uint64]
        [.pointer, .pointer, .pointer, .uint64] 2 .sint32 .pointer :=
      ⟨rfl, rfl, by decide, by decide⟩
    obtain ⟨rfl, rfl, rfl⟩ := hplace.unique first
    rfl
  | misshapen kinds => simp [hsignature] at kinds
  | answered kinds => simp [hsignature] at kinds

end Foreign

end NativeLink
