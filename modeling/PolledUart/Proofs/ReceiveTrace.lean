import PolledUart.Proofs.Requests
import PolledUart.Session

/-!
# The traces of receiving

Whatever a bus answers, the events of a completed fetch follow a small grammar: a look
at the overrun flag (`Checks`), a look at the status, and then the word that is ready,
or the count of the packing buffer and perhaps the word forced out of it (`Fetches`).
A read of one character is a character from the cache without an event, or some
fetches of which only the last brings a word (`Takes`); a longer read is several of
these (`Reads`).

* `Driver.takes_of_getChar` — reading one character.
* `Driver.reads_of_readBytes`, `Driver.reads_of_fillFrom` — reading up to a number of
  characters, and just that number.
* `Fetches.length_pos`, `Fetches.length_le` — a fetch that brings a word brings one to
  four characters.
-/

namespace PolledUart

/-! ### The grammar -/

/-- The command that pushes out the packing buffer. -/
def Trace.forceEvent (b : Block) : Event := b.writeEvent .cr Command.forceStale

/-- The events of looking for an overrun and clearing it. -/
inductive Checks (b : Block) : List Event → Prop where
  /-- No character was lost. -/
  | clear {v : UInt32} : v &&& Status.overrun = 0 → Checks b [b.readEvent .sr v]
  /-- A character was lost, and the flag is cleared. -/
  | overrun {v : UInt32} : v &&& Status.overrun ≠ 0 →
      Checks b [b.readEvent .sr v, b.writeEvent .cr Command.resetErrorStatus]

/-- The word of a full word read. -/
def Received.full (w : UInt32) : Received := ⟨⟨w⟩, 4⟩

/-- The word of a forced read: as many characters as the packing buffer has counted. -/
def Received.partly (count w : UInt32) : Received :=
  ⟨⟨w⟩, UInt8.ofNat (min (ReceiveState.bufferCount count).toNat FifoWord.laneCount)⟩

/-- The events of pushing out the packing buffer, taking the word and re-arming the receiver. -/
def forcedOut (b : Block) (w : UInt32) : List Event :=
  [b.writeEvent .cr Command.forceStale, b.readEvent .rf w,
    b.writeEvent .cr Command.resetStaleInterrupt, b.writeEvent .dmrx receiveOneWord]

/-- The events of a fetch, and what it brought. -/
inductive Fetches (b : Block) : List Event → Option Received → Prop where
  /-- A full word is ready. -/
  | full {t : List Event} {v w : UInt32} : Checks b t → v &&& Status.rxReady ≠ 0 →
      Fetches b (t ++ [b.readEvent .sr v, b.readEvent .rf w]) (some (.full w))
  /-- No full word is ready, and the packing buffer is empty. -/
  | nothing {t : List Event} {v count : UInt32} : Checks b t → v &&& Status.rxReady = 0 →
      ReceiveState.bufferCount count = 0 →
      Fetches b (t ++ [b.readEvent .sr v, b.readEvent .rxfs count]) none
  /-- No full word is ready, and the packing buffer is forced out. -/
  | forced {t : List Event} {v count w : UInt32} : Checks b t → v &&& Status.rxReady = 0 →
      ReceiveState.bufferCount count ≠ 0 →
      Fetches b (t ++ b.readEvent .sr v :: b.readEvent .rxfs count :: forcedOut b w)
        (some (.partly count w))

/-- The events of fetching until something has arrived, or of fetching once. -/
inductive Brings (b : Block) : List Event → Option Received → Prop where
  /-- The last fetch. -/
  | last {t : List Event} {r : Option Received} : Fetches b t r → Brings b t r
  /-- Nothing has arrived, and the next fetch follows. -/
  | again {t u : List Event} {r : Option Received} : Fetches b t none → Brings b u r →
      Brings b (t ++ u) r

/-- The events of reading one character, with the cache before and after it. -/
inductive Takes (b : Block) : RxCache → List Event → Except IoError UInt8 → RxCache → Prop where
  /-- The cache hands it out. -/
  | cached {c rest : RxCache} {byte : UInt8} : c.pop? = some (byte, rest) →
      Takes b c [] (.ok byte) rest
  /-- The cache is used up, and a word is fetched that hands it out. -/
  | fetched {c rest : RxCache} {t : List Event} {r : Received} {byte : UInt8} :
      c.isEmpty = true → Brings b t (some r) → (RxCache.ofReceived r).pop? = some (byte, rest) →
      Takes b c t (.ok byte) rest
  /-- The cache is used up, and nothing has arrived. -/
  | nothing {c : RxCache} {t : List Event} : c.isEmpty = true → Brings b t none →
      Takes b c t (.error .rxNotReady) c

/-- The characters a read hands out. -/
def taken : Except IoError UInt8 → List UInt8
  | .ok byte => [byte]
  | .error _ => []

/-- The events of reading some characters one after the other, with those that were handed out and
the cache before and after. -/
inductive Reads (b : Block) : RxCache → List Event → List UInt8 → RxCache → Prop where
  /-- No further read. -/
  | done {c : RxCache} : Reads b c [] [] c
  /-- A character, and further reads. -/
  | byte {c c₁ c' : RxCache} {t u : List Event} {byte : UInt8} {bytes : List UInt8} :
      Takes b c t (.ok byte) c₁ → Reads b c₁ u bytes c' → Reads b c (t ++ u) (byte :: bytes) c'
  /-- No character, and further reads. -/
  | nothing {c c₁ c' : RxCache} {t u : List Event} {bytes : List UInt8} :
      Takes b c t (.error .rxNotReady) c₁ → Reads b c₁ u bytes c' → Reads b c (t ++ u) bytes c'

/-- Re-arming the receiver is another write than pushing out the packing buffer: the values
differ. -/
theorem Trace.rearm_ne_force (b : Block) :
    b.writeEvent .dmrx receiveOneWord ≠ Trace.forceEvent b := by
  intro h
  exact absurd (Action.write.inj (Event.act.inj h)).2 (by decide)

theorem Checks.force_not_mem {b : Block} {t : List Event} (h : Checks b t) :
    Trace.forceEvent b ∉ t := by
  cases h with
  | clear _ => simp [Trace.forceEvent, Block.readEvent, Block.writeEvent]
  | overrun _ =>
    simp [Trace.forceEvent, Block.readEvent, Block.writeEvent, Command.forceStale,
      Command.resetErrorStatus]

namespace Fetches

variable {b : Block} {t : List Event} {r : Received}

/-- A fetch brings at least one character. -/
theorem length_pos (h : Fetches b t (some r)) : 0 < r.length.toNat := by
  cases h with
  | full _ _ => exact (by decide : 0 < (4 : UInt8).toNat)
  | @forced _ _ count _ _ _ hc =>
    have hpos : 0 < (ReceiveState.bufferCount count).toNat :=
      Nat.pos_of_ne_zero fun h0 => hc (UInt32.toNat_inj.1 h0)
    simp only [Received.partly, FifoWord.laneCount, UInt8.toNat_ofNat']
    omega

/-- A fetch brings no more characters than fit in a word. -/
theorem length_le (h : Fetches b t (some r)) : r.length.toNat ≤ 4 := by
  cases h with
  | full _ _ => exact (by decide : (4 : UInt8).toNat ≤ 4)
  | forced _ _ _ =>
    simp only [Received.partly, FifoWord.laneCount, UInt8.toNat_ofNat']
    omega

end Fetches

namespace Brings

variable {b : Block} {t : List Event} {r : Received}

/-- The word comes from the last fetch. -/
theorem exists_fetches (h : Brings b t (some r)) : ∃ t₁ t₂, t = t₁ ++ t₂ ∧ Fetches b t₂ (some r) := by
  generalize hr : some r = r' at h
  induction h with
  | last h => exact ⟨[], _, rfl, hr ▸ h⟩
  | again _ _ ih =>
    obtain ⟨t₁, t₂, rfl, h⟩ := ih hr
    exact ⟨_, t₂, (List.append_assoc ..).symm, h⟩

/-- The cache filled from a fetched word has a character to hand out. -/
theorem pop?_ne_none (h : Brings b t (some r)) : (RxCache.ofReceived r).pop? ≠ none := by
  obtain ⟨t₁, t₂, -, hf⟩ := h.exists_fetches
  intro h0
  have hzero : r.length = 0 := RxCache.pop?_eq_none_iff.1 h0
  exact absurd hf.length_pos (by rw [hzero]; decide)

end Brings

/-! ### The cache of a port -/

namespace Driver

variable {slots : Nat} {d : Driver slots} {port : PortId}

/-- The receive cache of a port; a port without a slot has an empty one. -/
def cacheOf (d : Driver slots) (port : PortId) : RxCache := d.caches[port.index]?.getD .empty

/-- The driver with another receive cache of one port. -/
def withCache (d : Driver slots) (port : PortId) (c : RxCache) : Driver slots :=
  { d with caches := d.caches.setIfInBounds port.index c }

theorem withCache_cacheOf (d : Driver slots) (port : PortId) :
    d.withCache port (d.cacheOf port) = d := by
  obtain ⟨config, ports, caches⟩ := d
  simp only [withCache, cacheOf, mk.injEq, true_and]
  ext i hi
  simp only [Vector.getElem_setIfInBounds]
  split
  · rename_i h
    subst h
    simp [hi]
  · rfl

@[simp] theorem withCache_withCache (d : Driver slots) (port : PortId) (c c' : RxCache) :
    (d.withCache port c).withCache port c' = d.withCache port c' := by
  simp [withCache]

theorem cacheOf_withCache (h : port.index < slots) (c : RxCache) :
    (d.withCache port c).cacheOf port = c := by
  simp [withCache, cacheOf, h]

end Driver

/-! ### The programs keep to it -/

section Completion

variable {σ : Type} {bus : Bus σ} {b : Block} {s s' : σ} {t : List Event}

namespace Receive

theorem checks_of_completes {u : Unit} (h : bus.Completes (clearOverrun b) s t u s') :
    Checks b t := by
  obtain ⟨v, s₁, t₁, t₂, hr, hn, rfl⟩ := Bus.completes_bind_iff.1 h
  obtain ⟨-, -, rfl⟩ := Block.completes_read_iff.1 hr
  split at hn
  · rename_i hv
    obtain ⟨-, -, rfl⟩ := Block.completes_write_iff.1 hn
    exact .overrun hv
  · rename_i hv
    obtain ⟨rfl, -, -⟩ := Bus.completes_done_iff.1 hn
    exact .clear (Decidable.not_not.1 hv)

theorem forcedOut_of_completes {w : FifoWord} (h : bus.Completes (forceOut b) s t w s') :
    t = forcedOut b w.raw := by
  obtain ⟨_, s₁, t₁, u₁, hf, h₁, rfl⟩ := Bus.completes_bind_iff.1 h
  obtain ⟨-, -, rfl⟩ := Block.completes_write_iff.1 hf
  obtain ⟨v, s₂, t₂, u₂, hr, h₂, rfl⟩ := Bus.completes_bind_iff.1 h₁
  obtain ⟨-, -, rfl⟩ := Block.completes_read_iff.1 hr
  obtain ⟨_, s₃, t₃, u₃, hc, h₃, rfl⟩ := Bus.completes_bind_iff.1 h₂
  obtain ⟨-, -, rfl⟩ := Block.completes_write_iff.1 hc
  obtain ⟨_, hd, rfl⟩ := Bus.completes_bind_done_iff.1 h₃
  obtain ⟨-, -, rfl⟩ := Block.completes_write_iff.1 hd
  rfl

theorem fetches_of_completes {r : Option Received} (h : bus.Completes (fetch b) s t r s') :
    Fetches b t r := by
  obtain ⟨_, s₁, t₁, u₁, hc, h₁, rfl⟩ := Bus.completes_bind_iff.1 h
  have hchecks := checks_of_completes hc
  obtain ⟨v, s₂, t₂, u₂, hs, h₂, rfl⟩ := Bus.completes_bind_iff.1 h₁
  obtain ⟨-, -, rfl⟩ := Block.completes_read_iff.1 hs
  split at h₂
  · rename_i hv
    obtain ⟨w, hw, rfl⟩ := Bus.completes_bind_done_iff.1 h₂
    obtain ⟨-, -, rfl⟩ := Block.completes_read_iff.1 hw
    exact .full hchecks hv
  · rename_i hv
    have hv := Decidable.not_not.1 hv
    obtain ⟨count, s₃, t₃, u₃, hx, h₃, rfl⟩ := Bus.completes_bind_iff.1 h₂
    obtain ⟨-, -, rfl⟩ := Block.completes_read_iff.1 hx
    dsimp only at h₃
    split at h₃
    · rename_i hzero
      obtain ⟨rfl, rfl, rfl⟩ := Bus.completes_done_iff.1 h₃
      exact .nothing hchecks hv hzero
    · rename_i hcount
      obtain ⟨w, hw, rfl⟩ := Bus.completes_bind_done_iff.1 h₃
      obtain rfl := forcedOut_of_completes hw
      exact .forced hchecks hv hcount

theorem brings_of_fetchWaiting {turns : Nat} {r : Received}
    (h : bus.Completes (fetchWaiting b turns) s t r s') : Brings b t (some r) := by
  induction turns generalizing s t with
  | zero =>
    unfold fetchWaiting at h
    obtain ⟨r₁, s₁, t₁, t₂, hf, hn, rfl⟩ := Bus.completes_bind_iff.1 h
    cases r₁ with
    | none => exact absurd hn Bus.not_completes_limit
    | some r₁ =>
      obtain ⟨rfl, rfl, rfl⟩ := Bus.completes_done_iff.1 hn
      rw [List.append_nil]
      exact .last (fetches_of_completes hf)
  | succ turns ih =>
    unfold fetchWaiting at h
    obtain ⟨r₁, s₁, t₁, t₂, hf, hn, rfl⟩ := Bus.completes_bind_iff.1 h
    cases r₁ with
    | none => exact .again (fetches_of_completes hf) (ih hn)
    | some r₁ =>
      obtain ⟨rfl, rfl, rfl⟩ := Bus.completes_done_iff.1 hn
      rw [List.append_nil]
      exact .last (fetches_of_completes hf)

end Receive

namespace Driver

variable {slots : Nat} {d d' : Driver slots} {fuel : Nat} {port : PortId} {base : Address}

theorem brings_of_fetchWord {wait : Bool} {r : Option Received}
    (h : bus.Completes (fetchWord fuel wait b) s t r s') : Brings b t r := by
  unfold fetchWord at h
  split at h
  · obtain ⟨received, hw, rfl⟩ := Bus.completes_bind_done_iff.1 h
    exact Receive.brings_of_fetchWaiting hw
  · exact .last (Receive.fetches_of_completes h)

theorem completes_setCache {slot : Nat} {c : RxCache}
    (h : bus.Completes (d.setCache slot c) s t d' s') :
    t = [] ∧ s' = s ∧ d' = { d with caches := d.caches.setIfInBounds slot c } := by
  unfold setCache at h
  split at h
  · rename_i hslot
    obtain ⟨rfl, rfl, rfl⟩ := Bus.completes_done_iff.1 h
    have hset : d.caches.set slot c = d.caches.setIfInBounds slot c := by
      ext i hi
      rw [Vector.getElem_set, Vector.getElem_setIfInBounds]
    exact ⟨rfl, rfl, by rw [hset]⟩
  · exact absurd h Bus.not_completes_fault

theorem completes_cache {c : RxCache} (h : bus.Completes (d.cache port.index) s t c s') :
    t = [] ∧ s' = s ∧ c = d.cacheOf port ∧ port.index < slots := by
  unfold cache at h
  split at h
  · rename_i hslot
    obtain ⟨rfl, rfl, rfl⟩ := Bus.completes_done_iff.1 h
    exact ⟨rfl, rfl, by simp [cacheOf, hslot], hslot⟩
  · exact absurd h Bus.not_completes_fault

theorem completes_takeFrom {c : RxCache} {r : Except IoError UInt8} (hc : c.pop? ≠ none)
    (h : bus.Completes (d.takeFrom port.index c) s t (r, d') s') :
    t = [] ∧ s' = s ∧
      ∃ byte rest, c.pop? = some (byte, rest) ∧ r = .ok byte ∧ d' = d.withCache port rest := by
  unfold takeFrom at h
  split at h
  · rename_i hnone
    exact absurd hnone hc
  · rename_i byte rest hpop
    obtain ⟨d₁, hset, hr⟩ := Bus.completes_bind_done_iff.1 h
    obtain ⟨rfl, rfl⟩ := Prod.mk.inj hr
    obtain ⟨rfl, rfl, rfl⟩ := completes_setCache hset
    exact ⟨rfl, rfl, byte, rest, hpop, rfl, rfl⟩

/-- **Reading one character** keeps to the grammar, and changes the cache of the port only. -/
theorem takes_of_getChar {wait : Bool} {r : Except IoError UInt8}
    (hport : d.ports.resolve port = some base)
    (h : bus.Completes (d.getChar fuel port wait) s t (r, d') s') :
    ∃ c, Takes (d.block base) (d.cacheOf port) t r c ∧ d' = d.withCache port c := by
  unfold getChar at h
  rw [hport] at h
  obtain ⟨c, s₁, t₁, u₁, hcache, h₁, rfl⟩ := Bus.completes_bind_iff.1 h
  obtain ⟨rfl, rfl, rfl, hslot⟩ := completes_cache hcache
  rw [List.nil_append]
  split at h₁
  · rename_i hempty
    obtain ⟨r₁, s₂, t₂, u₂, hf, h₂, rfl⟩ := Bus.completes_bind_iff.1 h₁
    have hbrings := brings_of_fetchWord hf
    cases r₁ with
    | none =>
      obtain ⟨rfl, hr, rfl⟩ := Bus.completes_done_iff.1 h₂
      obtain ⟨rfl, rfl⟩ := Prod.mk.inj hr
      rw [List.append_nil]
      exact ⟨_, .nothing hempty hbrings, (withCache_cacheOf d' port).symm⟩
    | some received =>
      obtain ⟨rfl, rfl, byte, rest, hpop, rfl, rfl⟩ := completes_takeFrom hbrings.pop?_ne_none h₂
      rw [List.append_nil]
      exact ⟨rest, .fetched hempty hbrings hpop, rfl⟩
  · rename_i hne
    obtain ⟨rfl, rfl, byte, rest, hpop, rfl, rfl⟩ := completes_takeFrom
      (fun h0 => hne (by simp [RxCache.isEmpty, RxCache.pop?_eq_none_iff.1 h0])) h₁
    exact ⟨rest, .cached hpop, rfl⟩

end Driver

end Completion

/-- A read that hands out no character answers that nothing has arrived. -/
theorem Takes.error_eq {b : Block} {c c' : RxCache} {t : List Event} {e : IoError}
    (h : Takes b c t (.error e) c') : e = .rxNotReady := by
  cases h
  rfl

namespace Reads

variable {b : Block} {c c₁ c' : RxCache} {t u : List Event} {bytes bytes' : List UInt8}

theorem append (h : Reads b c t bytes c₁) (h' : Reads b c₁ u bytes' c') :
    Reads b c (t ++ u) (bytes ++ bytes') c' := by
  induction h with
  | done => exact h'
  | byte ht _ ih =>
    rw [List.append_assoc]
    exact .byte ht (ih h')
  | nothing ht _ ih =>
    rw [List.append_assoc]
    exact .nothing ht (ih h')

theorem of_byte {byte : UInt8} (h : Takes b c t (.ok byte) c') : Reads b c t [byte] c' :=
  List.append_nil t ▸ .byte h .done

theorem of_error {e : IoError} (h : Takes b c t (.error e) c') : Reads b c t [] c' := by
  obtain rfl := h.error_eq
  exact List.append_nil t ▸ .nothing h .done

end Reads

section Readers

variable {σ : Type} {bus : Bus σ} {s s' : σ} {t : List Event} {slots : Nat}
  {d d' : Driver slots} {fuel : Nat} {port : PortId} {base : Address}

namespace Driver

theorem reads_of_takeReady {room : Nat} {filled : Filled IoError Unit}
    (hport : d.ports.resolve port = some base)
    (h : bus.Completes (d.takeReady fuel port room) s t (filled, d') s') :
    ∃ c, Reads (d.block base) (d.cacheOf port) t filled.bytes c ∧ d' = d.withCache port c := by
  have hslot := index_lt_of_resolve hport
  induction room generalizing d s t filled with
  | zero =>
    obtain ⟨rfl, hr, rfl⟩ := Bus.completes_done_iff.1 h
    obtain ⟨rfl, rfl⟩ := Prod.mk.inj hr
    exact ⟨_, .done, (withCache_cacheOf d' port).symm⟩
  | succ room ih =>
    obtain ⟨⟨r, d₁⟩, s₁, t₁, t₂, hg, hn, rfl⟩ := Bus.completes_bind_iff.1 h
    obtain ⟨c, ht, rfl⟩ := takes_of_getChar hport hg
    cases r with
    | error e =>
      obtain rfl := ht.error_eq
      obtain ⟨rfl, hr, rfl⟩ := Bus.completes_done_iff.1 hn
      obtain ⟨rfl, rfl⟩ := Prod.mk.inj hr
      rw [List.append_nil]
      exact ⟨c, .of_error ht, rfl⟩
    | ok byte =>
      obtain ⟨⟨rest, d₂⟩, hrest, hr⟩ := Bus.completes_bind_done_iff.1 hn
      obtain ⟨rfl, rfl⟩ := Prod.mk.inj hr
      obtain ⟨c', hreads, rfl⟩ := ih (d := d.withCache port c) hport hrest
      rw [cacheOf_withCache hslot] at hreads
      exact ⟨c', .byte ht hreads, withCache_withCache d port c c'⟩

theorem reads_of_readBytes {room : Nat} {filled : Filled IoError Nat}
    (hport : d.ports.resolve port = some base)
    (h : bus.Completes (d.readBytes fuel port room) s t (filled, d') s') :
    ∃ c, Reads (d.block base) (d.cacheOf port) t filled.bytes c ∧ d' = d.withCache port c := by
  have hslot := index_lt_of_resolve hport
  cases room with
  | zero =>
    obtain ⟨rfl, hr, rfl⟩ := Bus.completes_done_iff.1 h
    obtain ⟨rfl, rfl⟩ := Prod.mk.inj hr
    exact ⟨_, .done, (withCache_cacheOf d' port).symm⟩
  | succ room =>
    obtain ⟨⟨r, d₁⟩, s₁, t₁, t₂, hg, hn, rfl⟩ := Bus.completes_bind_iff.1 h
    obtain ⟨c, ht, rfl⟩ := takes_of_getChar hport hg
    cases r with
    | error e =>
      obtain ⟨rfl, hr, rfl⟩ := Bus.completes_done_iff.1 hn
      obtain ⟨rfl, rfl⟩ := Prod.mk.inj hr
      rw [List.append_nil]
      exact ⟨c, .of_error ht, rfl⟩
    | ok byte =>
      obtain ⟨⟨rest, d₂⟩, hrest, hr⟩ := Bus.completes_bind_done_iff.1 hn
      obtain ⟨rfl, rfl⟩ := Prod.mk.inj hr
      obtain ⟨c', hreads, rfl⟩ := reads_of_takeReady (d := d.withCache port c) hport hrest
      rw [cacheOf_withCache hslot] at hreads
      exact ⟨c', .byte ht hreads, withCache_withCache d port c c'⟩

/-- Reading ready characters of a registered port ends with no failure. -/
theorem takeReady_result {room : Nat} {filled : Filled IoError Unit}
    (hport : d.ports.resolve port = some base)
    (h : bus.Completes (d.takeReady fuel port room) s t (filled, d') s') :
    filled.result = .ok () ∧ filled.bytes.length ≤ room := by
  induction room generalizing d d' s t filled with
  | zero =>
    obtain ⟨-, hr, -⟩ := Bus.completes_done_iff.1 h
    obtain ⟨rfl, -⟩ := Prod.mk.inj hr
    exact ⟨rfl, Nat.le_refl 0⟩
  | succ room ih =>
    obtain ⟨⟨r, d₁⟩, s₁, t₁, t₂, hg, hn, rfl⟩ := Bus.completes_bind_iff.1 h
    obtain ⟨c, ht, rfl⟩ := takes_of_getChar hport hg
    cases r with
    | error e =>
      obtain rfl := ht.error_eq
      obtain ⟨-, hr, -⟩ := Bus.completes_done_iff.1 hn
      obtain ⟨rfl, -⟩ := Prod.mk.inj hr
      exact ⟨rfl, Nat.zero_le _⟩
    | ok byte =>
      obtain ⟨⟨rest, d₂⟩, hrest, hr⟩ := Bus.completes_bind_done_iff.1 hn
      obtain ⟨rfl, -⟩ := Prod.mk.inj hr
      obtain ⟨hresult, hlength⟩ := ih (d := d.withCache port c) hport hrest
      exact ⟨hresult, Nat.succ_le_succ hlength⟩

/-- A read that waits on a registered port ends with a character. -/
theorem getChar_waiting {r : Except IoError UInt8} (hport : d.ports.resolve port = some base)
    (h : bus.Completes (d.getChar fuel port true) s t (r, d') s') : ∃ byte, r = .ok byte := by
  unfold getChar at h
  rw [hport] at h
  obtain ⟨c, s₁, t₁, u₁, -, h₁, -⟩ := Bus.completes_bind_iff.1 h
  split at h₁
  · obtain ⟨r₁, s₂, t₂, u₂, hf, h₂, -⟩ := Bus.completes_bind_iff.1 h₁
    have hbrings := brings_of_fetchWord hf
    obtain ⟨received, -, rfl⟩ := Bus.completes_bind_done_iff.1 hf
    obtain ⟨-, -, byte, rest, -, rfl, -⟩ := completes_takeFrom hbrings.pop?_ne_none h₂
    exact ⟨byte, rfl⟩
  · rename_i hne
    obtain ⟨-, -, byte, rest, -, rfl, -⟩ := completes_takeFrom
      (fun h0 => hne (by simp [RxCache.isEmpty, RxCache.pop?_eq_none_iff.1 h0])) h₁
    exact ⟨byte, rfl⟩

/-- A read of a registered port answers with the number of its characters; there is at least one,
if there is room for it. -/
theorem readBytes_result {room : Nat} {filled : Filled IoError Nat}
    (hport : d.ports.resolve port = some base)
    (h : bus.Completes (d.readBytes fuel port room) s t (filled, d') s') :
    filled.result = .ok filled.bytes.length ∧ filled.bytes.length ≤ room ∧
      (0 < room → 0 < filled.bytes.length) := by
  cases room with
  | zero =>
    obtain ⟨-, hr, -⟩ := Bus.completes_done_iff.1 h
    obtain ⟨rfl, -⟩ := Prod.mk.inj hr
    exact ⟨rfl, Nat.le_refl 0, fun h0 => h0⟩
  | succ room =>
    obtain ⟨⟨r, d₁⟩, s₁, t₁, t₂, hg, hn, rfl⟩ := Bus.completes_bind_iff.1 h
    obtain ⟨byte, rfl⟩ := getChar_waiting hport hg
    obtain ⟨c, -, rfl⟩ := takes_of_getChar hport hg
    obtain ⟨⟨rest, d₂⟩, hrest, hr⟩ := Bus.completes_bind_done_iff.1 hn
    obtain ⟨rfl, -⟩ := Prod.mk.inj hr
    obtain ⟨hresult, hlength⟩ := takeReady_result (d := d.withCache port c) hport hrest
    refine ⟨?_, Nat.succ_le_succ hlength, fun _ => Nat.succ_pos _⟩
    rw [hresult]
    rfl

/-- Filling a buffer from a registered port fills it. -/
theorem reads_of_fillFrom {reads room : Nat} {filled : Filled FillError Unit}
    (hport : d.ports.resolve port = some base) (hreads : room ≤ reads)
    (h : bus.Completes (d.fillFrom fuel port reads room) s t (filled, d') s') :
    filled.result = .ok () ∧ filled.bytes.length = room ∧
      ∃ c, Reads (d.block base) (d.cacheOf port) t filled.bytes c ∧ d' = d.withCache port c := by
  have hslot := index_lt_of_resolve hport
  induction reads generalizing d s t filled room with
  | zero =>
    obtain rfl := Nat.le_zero.1 hreads
    obtain ⟨rfl, hr, rfl⟩ := Bus.completes_done_iff.1 h
    obtain ⟨rfl, rfl⟩ := Prod.mk.inj hr
    exact ⟨rfl, rfl, _, .done, (withCache_cacheOf d' port).symm⟩
  | succ reads ih =>
    cases room with
    | zero =>
      obtain ⟨rfl, hr, rfl⟩ := Bus.completes_done_iff.1 h
      obtain ⟨rfl, rfl⟩ := Prod.mk.inj hr
      exact ⟨rfl, rfl, _, .done, (withCache_cacheOf d' port).symm⟩
    | succ room =>
      obtain ⟨⟨⟨bytes, result⟩, d₁⟩, s₁, t₁, t₂, hread, hn, rfl⟩ := Bus.completes_bind_iff.1 h
      obtain ⟨hresult, hle, hpos⟩ := readBytes_result hport hread
      obtain ⟨c, hfirst, rfl⟩ := reads_of_readBytes hport hread
      dsimp only at hresult hle hpos hfirst
      obtain rfl := hresult
      -- a read into a buffer with room is not empty, so it is no end of the stream
      obtain ⟨n, hn'⟩ := Nat.exists_eq_succ_of_ne_zero (Nat.pos_iff_ne_zero.1 (hpos (Nat.succ_pos _)))
      rw [hn'] at hn
      obtain ⟨⟨rest, d₂⟩, hrest, hr⟩ := Bus.completes_bind_done_iff.1 hn
      obtain ⟨rfl, rfl⟩ := Prod.mk.inj hr
      obtain ⟨hdone, hlength, c', hlater, rfl⟩ :=
        ih (d := d.withCache port c) hport (by omega) hrest
      rw [cacheOf_withCache hslot] at hlater
      refine ⟨hdone, ?_, c', hfirst.append hlater, withCache_withCache d port c c'⟩
      rw [List.length_append, hlength]
      omega

theorem reads_of_drain {max : Nat} {bytes : List UInt8} {stop : Option IoError}
    (hport : d.ports.resolve port = some base)
    (h : bus.Completes (d.drain fuel port max) s t ((bytes, stop), d') s') :
    ∃ c, Reads (d.block base) (d.cacheOf port) t bytes c ∧ d' = d.withCache port c := by
  have hslot := index_lt_of_resolve hport
  induction max generalizing d s t bytes with
  | zero =>
    obtain ⟨rfl, hr, rfl⟩ := Bus.completes_done_iff.1 h
    simp only [Prod.mk.injEq] at hr
    obtain ⟨⟨rfl, -⟩, rfl⟩ := hr
    exact ⟨_, .done, (withCache_cacheOf d' port).symm⟩
  | succ max ih =>
    obtain ⟨⟨r, d₁⟩, s₁, t₁, t₂, hg, hn, rfl⟩ := Bus.completes_bind_iff.1 h
    obtain ⟨c, ht, rfl⟩ := takes_of_getChar hport hg
    cases r with
    | error e =>
      obtain ⟨rfl, hr, rfl⟩ := Bus.completes_done_iff.1 hn
      simp only [Prod.mk.injEq] at hr
      obtain ⟨⟨rfl, -⟩, rfl⟩ := hr
      rw [List.append_nil]
      exact ⟨c, .of_error ht, rfl⟩
    | ok byte =>
      obtain ⟨⟨⟨rest, stop'⟩, d₂⟩, hrest, hr⟩ := Bus.completes_bind_done_iff.1 hn
      simp only [Prod.mk.injEq] at hr
      obtain ⟨⟨rfl, rfl⟩, rfl⟩ := hr
      obtain ⟨c', hreads, rfl⟩ := ih (d := d.withCache port c) hport hrest
      rw [cacheOf_withCache hslot] at hreads
      exact ⟨c', .byte ht hreads, withCache_withCache d port c c'⟩

end Driver

end Readers

end PolledUart
