import PolledUart.Proofs.BringUp
import PolledUart.Proofs.FetchedWords
import PolledUart.Proofs.History

/-!
# What a call makes of the driver

A driver changes in two ways only: an initialization that succeeds adds a port with an
empty receive cache, and a read replaces the cache of the port it reads. Everything else
leaves the driver as it is, a failed initialization and all sending among it.

* `Driver.looks_of_completes`, `Driver.draws_of_completes`, `Driver.idle_of_completes` —
  a call that sends on a registered port, one that reads it, and one on a port that is
  not registered, with what they did on the bus.
* `Driver.looks_of_init` — what an initialization reads.
* `Driver.leaves_of_completes` — what any call makes of the driver.
-/

namespace PolledUart

variable {σ : Type} {slots : Nat} {bus : Bus σ} {s s' : σ} {t : List Event} {fuel : Nat}

/-- The port a call is made on. An initialization is made on none. -/
def Call.port? : Call → Option PortId
  | .init .. => none
  | .putChar port _ => some port
  | .write port _ => some port
  | .flush port => some port
  | .getChar port _ => some port
  | .drain port _ => some port
  | .borrow port => some port
  | .writeBytes port _ => some port
  | .writeAll port _ => some port
  | .readBytes port _ => some port
  | .readExact port _ => some port
  | .writeText port _ => some port
  | .writePieces port _ => some port

/-- The call reads a port. -/
def Call.reads : Call → Bool
  | .getChar .. => true
  | .drain .. => true
  | .readBytes .. => true
  | .readExact .. => true
  | _ => false

/-- The characters that an answer hands out. A buffer counts only if the read has succeeded. -/
def Reply.bytes : Reply → List UInt8
  | .byte r => taken r
  | .drained bytes _ => bytes
  | .buffer bytes (.ok _) => bytes
  | .filled bytes (.ok _) => bytes
  | _ => []

/-- A request that does not read, or reads one of the two status registers. -/
def Request.Looks (b : Block) : Request → Prop
  | .read a => a = b.location .sr ∨ a = b.location .isr
  | .act _ => True
  | .stop => True

/-- The only reads of a trace are of the two status registers. -/
def Trace.OnlyLooks (b : Block) (t : List Event) : Prop :=
  ∀ a v, .read a v ∈ t → a = b.location .sr ∨ a = b.location .isr

/-- Sending looks at nothing else. -/
theorem Transmit.allowed_looks (b : Block) : Transmit.Allowed b (Request.Looks b) where
  stop := fun _ _ => trivial
  look := by
    intro q hq
    simp only [List.mem_cons, List.not_mem_nil, or_false] at hq
    rcases hq with rfl | rfl
    · exact .inl rfl
    · exact .inr rfl
  delay := trivial
  enter := trivial
  leave := trivial
  count := fun _ => trivial
  command := fun _ _ => trivial
  data := fun _ => trivial

namespace Driver

variable {d d' : Driver slots} {port : PortId} {base : Address} {c : Call} {reply : Reply}

/-! ### Calls that send -/

/-- A call that sends asks for no more than sending does, answers without a character, and leaves
the driver as it is. -/
theorem asks_of_sending {P : Request → Prop} (hc : c.port? = some port) (hr : c.reads = false)
    (hP : d.MaySend port P) :
    (c.program fuel d).Asks P fun r => r.1.bytes = [] ∧ r.2 = d := by
  have hanswer : ∀ {α : Type} {p : Program α} {f : α → Reply}, (∀ a, (f a).bytes = []) →
      (p.Asks P fun _ => True) →
      (p.bind fun a => .done (f a, d)).Asks P fun r => r.1.bytes = [] ∧ r.2 = d := by
    intro α p f hf hp
    exact hp.bind fun a _ => ⟨hf a, rfl⟩
  cases c with
  | init _ _ _ _ => cases hc
  | getChar _ _ | drain _ _ | readBytes _ _ | readExact _ _ => cases hr
  | putChar p byte | write p data =>
    obtain rfl := Option.some.inj hc
    exact hanswer (fun _ => rfl) (asks_write hP)
  | flush p =>
    obtain rfl := Option.some.inj hc
    exact hanswer (fun _ => rfl) (asks_flush hP)
  | borrow p =>
    obtain rfl := Option.some.inj hc
    have hborrow : (d.onPort p fun _ => return .ok ()).Asks P fun _ => True :=
      asks_onPort fun _ _ => trivial
    exact hanswer (fun _ => rfl) hborrow
  | writeBytes p data =>
    obtain rfl := Option.some.inj hc
    exact hanswer (fun _ => rfl) (asks_writeBytes hP)
  | writeAll p data =>
    obtain rfl := Option.some.inj hc
    exact hanswer (fun _ => rfl) (asks_writeAll hP)
  | writeText p text =>
    obtain rfl := Option.some.inj hc
    exact hanswer (fun _ => rfl) (asks_writeText hP)
  | writePieces p pieces =>
    obtain rfl := Option.some.inj hc
    exact hanswer (fun _ => rfl) (asks_writePieces hP)

theorem maySend_looks (hport : d.ports.resolve port = some base) :
    d.MaySend port (Request.Looks (d.block base)) := by
  intro a ha
  obtain rfl : a = base := Option.some.inj (ha.symm.trans hport)
  exact Transmit.allowed_looks _

/-- Nobody can send on a port that is not registered. -/
theorem maySend_of_none {P : Request → Prop} (hport : d.ports.resolve port = none) :
    d.MaySend port P := by
  intro base hbase
  rw [hport] at hbase
  cases hbase

/-! ### Calls on a registered port -/

/-- **A call that sends on a registered port** hands out nothing, reads nothing but the status
registers, and leaves the driver as it is. -/
theorem looks_of_completes (hc : c.port? = some port) (hr : c.reads = false)
    (hport : d.ports.resolve port = some base)
    (h : bus.Completes (c.program fuel d) s t (reply, d') s') :
    Trace.OnlyLooks (d.block base) t ∧ reply.bytes = [] ∧ d' = d := by
  obtain ⟨⟨hbytes, hd⟩, hlooks⟩ := h.asks (asks_of_sending hc hr (maySend_looks hport))
  exact ⟨fun a v hmem => hlooks _ hmem, hbytes, hd⟩

/-- **A call that reads a registered port** draws characters from it, and replaces its cache. -/
theorem draws_of_completes (hc : c.port? = some port) (hr : c.reads = true)
    (hport : d.ports.resolve port = some base)
    (h : bus.Completes (c.program fuel d) s t (reply, d') s') :
    ∃ words cache, Draws (d.block base) (d.cacheOf port) t words reply.bytes cache ∧
      d' = d.withCache port cache := by
  cases c with
  | getChar p wait =>
    obtain rfl := Option.some.inj hc
    obtain ⟨⟨r, d₁⟩, hrun, heq⟩ := Bus.completes_bind_done_iff.1 h
    obtain ⟨rfl, rfl⟩ := Prod.mk.inj heq
    obtain ⟨cache, htakes, rfl⟩ := takes_of_getChar hport hrun
    obtain ⟨words, hdraws⟩ := draws_of_takes htakes
    exact ⟨words, cache, hdraws, rfl⟩
  | drain p max =>
    obtain rfl := Option.some.inj hc
    obtain ⟨⟨⟨bytes, stop⟩, d₁⟩, hrun, heq⟩ := Bus.completes_bind_done_iff.1 h
    obtain ⟨rfl, rfl⟩ := Prod.mk.inj heq
    obtain ⟨cache, hreads, rfl⟩ := reads_of_drain hport hrun
    obtain ⟨words, hdraws⟩ := draws_of_reads hreads
    exact ⟨words, cache, hdraws, rfl⟩
  | readBytes p room =>
    obtain rfl := Option.some.inj hc
    obtain ⟨⟨⟨bytes, result⟩, d₁⟩, hrun, heq⟩ := Bus.completes_bind_done_iff.1 h
    obtain ⟨rfl, rfl⟩ := Prod.mk.inj heq
    obtain ⟨cache, hreads, rfl⟩ := reads_of_readBytes hport hrun
    obtain ⟨hresult, -, -⟩ := readBytes_result hport hrun
    obtain ⟨words, hdraws⟩ := draws_of_reads hreads
    dsimp only at hresult hdraws ⊢
    rw [hresult]
    exact ⟨words, cache, hdraws, rfl⟩
  | readExact p room =>
    obtain rfl := Option.some.inj hc
    obtain ⟨⟨⟨bytes, result⟩, d₁⟩, hrun, heq⟩ := Bus.completes_bind_done_iff.1 h
    obtain ⟨rfl, rfl⟩ := Prod.mk.inj heq
    obtain ⟨hresult, -, cache, hreads, rfl⟩ := reads_of_fillFrom hport (Nat.le_refl room) hrun
    obtain ⟨words, hdraws⟩ := draws_of_reads hreads
    dsimp only at hresult hdraws ⊢
    rw [hresult]
    exact ⟨words, cache, hdraws, rfl⟩
  | _ => cases hr

/-! ### Initializations -/

/-- **An initialization** reads nothing but the status registers of its block. -/
theorem looks_of_init {board : Board} {number : UInt8} {wrapper : Option Address}
    (h : bus.Completes ((Call.init board number wrapper base).program fuel d) s t (reply, d') s') :
    Trace.OnlyLooks (d.block base) t := by
  obtain ⟨⟨result, d₁⟩, hrun, -⟩ := Bus.completes_bind_done_iff.1 h
  have hprepare : MayPrepare number wrapper (d.block base) (Request.Looks (d.block base)) :=
    { stop := fun _ _ => trivial, stopWrapper := fun _ _ _ => trivial, barrier := trivial,
      clock := trivial, pads := trivial, wrapper := fun _ _ => trivial,
      plain := fun _ _ _ => trivial, command := fun _ _ => trivial }
  have hlooks := (hrun.asks (asks_init hprepare (Transmit.allowed_looks _))).2
  exact fun a v hmem => hlooks _ hmem

/-! ### Calls on a port that is not registered -/

theorem getChar_of_none {wait : Bool} (hport : d.ports.resolve port = none) :
    d.getChar fuel port wait = .done (.error .uninitialized, d) := by
  unfold getChar
  rw [hport]
  rfl

/-- Reading a port that is not registered is over at once. -/
theorem program_of_none (hc : c.port? = some port) (hr : c.reads = true)
    (hport : d.ports.resolve port = none) :
    ∃ reply, reply.bytes = [] ∧ c.program fuel d = .done (reply, d) := by
  cases c with
  | getChar p wait =>
    obtain rfl := Option.some.inj hc
    refine ⟨.byte (.error .uninitialized), rfl, ?_⟩
    rw [Call.program, getChar_of_none hport]
    rfl
  | drain p max =>
    obtain rfl := Option.some.inj hc
    cases max with
    | zero => exact ⟨.drained [] none, rfl, rfl⟩
    | succ max =>
      refine ⟨.drained [] (some .uninitialized), rfl, ?_⟩
      rw [Call.program, drain, getChar_of_none hport]
      rfl
  | readBytes p room =>
    obtain rfl := Option.some.inj hc
    cases room with
    | zero => exact ⟨.buffer [] (.ok 0), rfl, rfl⟩
    | succ room =>
      refine ⟨.buffer [] (.error .uninitialized), rfl, ?_⟩
      rw [Call.program, readBytes, getChar_of_none hport]
      rfl
  | readExact p room =>
    obtain rfl := Option.some.inj hc
    cases room with
    | zero => exact ⟨.filled [] (.ok ()), rfl, rfl⟩
    | succ room =>
      refine ⟨.filled [] (.error (.io .uninitialized)), rfl, ?_⟩
      rw [Call.program, readExact, fillFrom, readBytes, getChar_of_none hport]
      rfl
  | _ => cases hr

/-- **A call on a port that is not registered** does nothing. -/
theorem idle_of_completes (hc : c.port? = some port) (hport : d.ports.resolve port = none)
    (h : bus.Completes (c.program fuel d) s t (reply, d') s') :
    t = [] ∧ reply.bytes = [] ∧ d' = d := by
  cases hr : c.reads with
  | false =>
    have hsilent : d.MaySend port fun _ => False := maySend_of_none hport
    obtain ⟨⟨hbytes, rfl⟩, hnone⟩ := h.asks (asks_of_sending hc hr hsilent)
    exact ⟨List.eq_nil_iff_forall_not_mem.2 hnone, hbytes, rfl⟩
  | true =>
    obtain ⟨reply₁, hbytes, hprogram⟩ : ∃ r : Reply, r.bytes = [] ∧
        c.program fuel d = .done (r, d) := program_of_none hc hr hport
    rw [hprogram] at h
    obtain ⟨rfl, heq, -⟩ := Bus.completes_done_iff.1 h
    obtain ⟨rfl, rfl⟩ := Prod.mk.inj heq
    exact ⟨rfl, hbytes, rfl⟩

/-! ### Any call -/

/-- A call that reads asks for no more than reading does. -/
theorem asks_of_reading {P : Request → Prop} (hc : c.port? = some port) (hr : c.reads = true)
    (hP : d.MayRead port P) : (c.program fuel d).Asks P fun _ => True := by
  cases c with
  | getChar p wait =>
    obtain rfl := Option.some.inj hc
    exact (asks_getChar hP).bind fun _ _ => trivial
  | drain p max =>
    obtain rfl := Option.some.inj hc
    exact (asks_drain hP max).bind fun _ _ => trivial
  | readBytes p room =>
    obtain rfl := Option.some.inj hc
    exact (asks_readBytes hP room).bind fun _ _ => trivial
  | readExact p room =>
    obtain rfl := Option.some.inj hc
    exact (asks_fillFrom hP room room).bind fun _ _ => trivial
  | _ => cases hr

/-- **What a call asks for**: an initialization prepares its block and sends the banner, and any
other call sends on its port or reads it. -/
theorem asks_of_call {P : Request → Prop}
    (hinit : ∀ board number wrapper base, c = .init board number wrapper base →
      MayPrepare number wrapper (d.block base) P ∧ Transmit.Allowed (d.block base) P)
    (hport : ∀ port, c.port? = some port → d.MaySend port P ∧ d.MayRead port P) :
    (c.program fuel d).Asks P fun _ => True := by
  cases hc : c.port? with
  | some port =>
    obtain ⟨hsend, hread⟩ := hport port hc
    cases hr : c.reads with
    | true => exact asks_of_reading hc hr hread
    | false => exact (asks_of_sending hc hr hsend).mono (fun _ h => h) fun _ _ => trivial
  | none =>
    cases c with
    | init board number wrapper base =>
      obtain ⟨hprepare, hbanner⟩ := hinit board number wrapper base rfl
      exact (asks_init hprepare hbanner).bind fun _ _ => trivial
    | _ => cases hc

/-- What a completed call has made of a driver. -/
inductive Leaves (d : Driver slots) : Call → Reply → Driver slots → Prop where
  /-- An initialization has failed. -/
  | failed {board : Board} {number : UInt8} {wrapper : Option Address} {base : Address}
      {e : InitError} : Leaves d (.init board number wrapper base) (.port (.error e)) d
  /-- An initialization has succeeded. -/
  | opened {board : Board} {number : UInt8} {wrapper : Option Address} {base : Address}
      {id : PortId} {d' : Driver slots} : base ≠ 0 → d.Opens base id d' →
      Leaves d (.init board number wrapper base) (.port (.ok id)) d'
  /-- A port has been used, which has replaced at most its cache. -/
  | used {c : Call} {reply : Reply} {port : PortId} {cache : RxCache} : c.port? = some port →
      ((d.cacheOf port).remaining ≤ 4 → cache.remaining ≤ 4) →
      Leaves d c reply (d.withCache port cache)

theorem leaves_of_port (hc : c.port? = some port)
    (h : bus.Completes (c.program fuel d) s t (reply, d') s') : d.Leaves c reply d' := by
  cases hport : d.ports.resolve port with
  | none =>
    obtain ⟨-, -, rfl⟩ := idle_of_completes hc hport h
    have hsame : d'.Leaves c reply (d'.withCache port (d'.cacheOf port)) := .used hc id
    rwa [withCache_cacheOf] at hsame
  | some base =>
    cases hr : c.reads with
    | true =>
      obtain ⟨words, cache, hdraws, rfl⟩ := draws_of_completes hc hr hport h
      exact .used hc fun hle => (hdraws.conserves hle).1
    | false =>
      obtain ⟨-, -, rfl⟩ := looks_of_completes hc hr hport h
      have hsame : d'.Leaves c reply (d'.withCache port (d'.cacheOf port)) := .used hc id
      rwa [withCache_cacheOf] at hsame

theorem leaves_of_init {board : Board} {number : UInt8} {wrapper : Option Address}
    (h : bus.Completes ((Call.init board number wrapper base).program fuel d) s t (reply, d') s') :
    d.Leaves (.init board number wrapper base) reply d' := by
  obtain ⟨⟨result, d₁⟩, hrun, heq⟩ := Bus.completes_bind_done_iff.1 h
  obtain ⟨rfl, rfl⟩ := Prod.mk.inj heq
  by_cases ha : d.Accepts base
  · obtain ⟨_, _, _, _, -, -, -, -, hend⟩ := completes_init ha hrun
    rcases hend with ⟨e, -, rfl, rfl⟩ | ⟨-, ⟨rfl, rfl, -⟩ | ⟨id, rfl, hopens⟩⟩
    · exact .failed
    · exact .failed
    · exact .opened ha.1 hopens
  · obtain ⟨e, -, hrefused⟩ := init_of_not_accepted ha
    rw [hrefused] at hrun
    obtain ⟨-, heq, -⟩ := Bus.completes_done_iff.1 hrun
    obtain ⟨rfl, rfl⟩ := Prod.mk.inj heq
    exact .failed

/-- **A completed call** has added a port, replaced a cache, or left the driver as it was. -/
theorem leaves_of_completes (h : bus.Completes (c.program fuel d) s t (reply, d') s') :
    d.Leaves c reply d' := by
  cases hc : c.port? with
  | some port => exact leaves_of_port hc h
  | none =>
    cases c with
    | init _ _ _ _ => exact leaves_of_init h
    | _ => cases hc

namespace Leaves

/-- An initialization that succeeds has opened a port. -/
theorem opens {board : Board} {number : UInt8} {wrapper : Option Address}
    (h : d.Leaves (.init board number wrapper base) (.port (.ok port)) d') :
    d.Opens base port d' := by
  cases h with
  | opened _ hopens => exact hopens
  | used hc _ => cases hc

theorem config_eq (h : d.Leaves c reply d') : d'.config = d.config := by
  cases h with
  | failed => rfl
  | opened _ hopens => exact hopens.config
  | used _ _ => rfl

/-- A port that is registered stays registered. -/
theorem resolve_eq (h : d.Leaves c reply d') (hport : d.ports.resolve port = some base) :
    d'.ports.resolve port = some base := by
  cases h with
  | failed => exact hport
  | @opened _ _ _ _ id _ _ hopens =>
    have hne : port ≠ id := by
      rintro rfl
      have hlt := (List.getElem?_eq_some_iff.1 hport).1
      rw [hopens.index_eq] at hlt
      exact absurd hlt (Nat.lt_irrefl _)
    rw [Registry.resolve_register hopens.registered, if_neg hne]
    exact hport
  | used _ _ => exact hport

/-- A call on another port, or on none, leaves the cache of a registered port alone. -/
theorem cacheOf_eq (h : d.Leaves c reply d') (hport : d.ports.resolve port = some base)
    (hc : c.port? ≠ some port) : d'.cacheOf port = d.cacheOf port := by
  cases h with
  | failed => rfl
  | @opened _ _ _ _ id _ _ hopens =>
    have hne : id.index ≠ port.index := by
      have hlt : port.index < d.ports.size := (List.getElem?_eq_some_iff.1 hport).1
      rw [hopens.index_eq]
      exact Nat.ne_of_gt hlt
    rw [cacheOf, hopens.caches, Vector.getElem?_setIfInBounds_ne hne]
    rfl
  | @used _ _ q cache hq _ =>
    have hne : q.index ≠ port.index := by
      intro heq
      obtain rfl : q = port := congrArg PortId.mk (UInt8.toNat_inj.1 heq)
      exact hc hq
    rw [cacheOf, withCache, Vector.getElem?_setIfInBounds_ne hne]
    rfl

end Leaves

end Driver

end PolledUart
