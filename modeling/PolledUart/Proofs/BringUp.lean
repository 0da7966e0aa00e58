import PolledUart.Proofs.Meets
import PolledUart.Proofs.ReceiveTrace

/-!
# Bringing up a port

An initialization that is not refused prepares the block (`Driver.prepare`), sends the
banner, and registers the port last. So it is refused before the first event, or it
gets as far as the banner, and only then can it still fail.

* `Driver.init_of_accepted` — the three parts.
* `Driver.asks_prepare` — what preparing a block asks for.
* `Driver.completes_init` — how a completed initialization went.
-/

namespace PolledUart.Driver

variable {slots : Nat} {d d' : Driver slots} {fuel : Nat} {board : Board} {number : UInt8}
  {wrapper : Option Address} {base : Address}

/-- Everything an initialization does to the hardware before the banner. -/
def prepare (config : Config) (board : Board) (number : UInt8) (wrapper : Option Address)
    (b : Block) : Program Unit := do
  board.configureClock number
  Program.perform .barrier
  board.configurePads number
  Program.perform .barrier
  if let some address := wrapper then
    selectProtocol address
  programBlock config b

/-- An initialization is accepted: the base is no null address, and a slot is free. -/
def Accepts (d : Driver slots) (base : Address) : Prop := base ≠ 0 ∧ d.ports.isFull = false

instance (d : Driver slots) (base : Address) : Decidable (d.Accepts base) :=
  inferInstanceAs (Decidable (_ ∧ _))

theorem init_of_accepted (h : d.Accepts base) :
    d.init fuel board number wrapper base =
      (prepare d.config board number wrapper (d.block base)).bind fun _ =>
        (sendBanner d.config fuel (d.block base)).bind fun
          | .error e => .done (.error (.transmit e), d)
          | .ok () => d.addPort base := by
  obtain ⟨h0, hfull⟩ := h
  unfold init prepare
  rw [if_neg h0, if_neg (by simp [hfull])]
  cases wrapper <;> simp only [Program.bind_eq, Program.bind_assoc] <;> rfl

theorem init_of_not_accepted (h : ¬ d.Accepts base) :
    ∃ e, (e = .invalidBase ∨ e = .registryFull) ∧ ∀ fuel board number wrapper,
      d.init fuel board number wrapper base = .done (.error e, d) := by
  by_cases h0 : base = 0
  · exact ⟨_, .inl rfl, fun _ _ _ _ => if_pos h0⟩
  · have hfull : d.ports.isFull = true := by simpa [Accepts, h0] using h
    exact ⟨_, .inr rfl, fun _ _ _ _ => (if_neg h0).trans (if_pos hfull)⟩

/-- `P` allows what preparing a block asks for. -/
structure MayPrepare (number : UInt8) (wrapper : Option Address) (b : Block)
    (P : Request → Prop) : Prop where
  stop : ∀ q, b.address? q = none → P .stop
  stopWrapper : ∀ w ∈ wrapper, Address.plus? w Gsbi.control = none → P .stop
  barrier : P (.act .barrier)
  clock : P (.act (.clock number))
  pads : P (.act (.pads number))
  wrapper : ∀ w ∈ wrapper,
    P (.act (.write (w + Gsbi.control) (Gsbi.i2cAndUart <<< Gsbi.protocolShift)))
  plain : ∀ q ∈ [Register.csr, .mr1, .mr2, .dmen], ∀ v, P (.act (.write (b.location q) v))
  command : ∀ c ∈ [Command.resetRx, Command.resetTx], P (.act (.write (b.location .cr) c))

/-- Preparing a block writes four of its plain registers, gives it two commands, and writes the
wrapper. -/
theorem asks_prepare {config : Config} {b : Block} {P : Request → Prop}
    (h : MayPrepare number wrapper b P) :
    (prepare config board number wrapper b).Asks P fun _ => True := by
  have hplain := fun q hq v => Block.asks_write (b := b) (h.stop q) (h.plain q hq v)
  have hcommand := fun c hc => Block.asks_write (b := b) (h.stop .cr) (h.command c hc)
  have hbarrier := Program.asks_perform h.barrier
  have hprogram : (programBlock config b).Asks P fun _ => True :=
    (hplain .csr (by simp) _).bind fun _ _ => hbarrier.bind fun _ _ =>
    (hplain .mr1 (by simp) _).bind fun _ _ => (hplain .mr2 (by simp) _).bind fun _ _ =>
    (hcommand Command.resetRx (by simp)).bind fun _ _ =>
    (hcommand Command.resetTx (by simp)).bind fun _ _ => hplain .dmen (by simp) _
  have hclocks : (board.configureClock number).Asks P fun _ => True := by
    cases board with
    | ready => trivial
    | hooks => exact Program.asks_perform h.clock
  have hrouted : (board.configurePads number).Asks P fun _ => True := by
    cases board with
    | ready => trivial
    | hooks => exact Program.asks_perform h.pads
  refine hclocks.bind fun _ _ => hbarrier.bind fun _ _ => hrouted.bind fun _ _ =>
    hbarrier.bind fun _ _ => ?_
  cases wrapper with
  | none => exact hprogram
  | some w =>
    have hselect : (selectProtocol w).Asks P fun _ => True :=
      (Program.asks_require (h.stopWrapper w rfl)).bind fun a ha =>
        (Program.asks_perform (Address.eq_add_of_plus? ha ▸ h.wrapper w rfl)).bind fun _ _ =>
          hbarrier
    exact hselect.bind fun _ _ => hprogram

/-- Sending the banner asks for no more than sending does. -/
theorem asks_sendBanner {config : Config} {b : Block} {P : Request → Prop}
    (h : Transmit.Allowed b P) : (sendBanner config fuel b).Asks P fun _ => True := by
  unfold sendBanner
  split
  · trivial
  · exact Transmit.asks_transmit h

theorem meets_prepare {config : Config} {b : Block} {P : Action → Prop} (hbarrier : P .barrier)
    (hclock : P (.clock number)) (hpads : P (.pads number))
    (hwrapper : ∀ w ∈ wrapper,
      P (.write (w + Gsbi.control) (Gsbi.i2cAndUart <<< Gsbi.protocolShift)))
    (hplain : ∀ q ∈ [Register.csr, .mr1, .mr2, .dmen], ∀ v, P (.write (b.location q) v))
    (hcommand : ∀ c ∈ [Command.resetRx, Command.resetTx], P (.write (b.location .cr) c)) :
    (prepare config board number wrapper b).Meets P fun _ => True := by
  have hmay : MayPrepare number wrapper b (Request.Within P) :=
    { stop := fun _ _ => trivial, stopWrapper := fun _ _ _ => trivial, barrier := hbarrier,
      clock := hclock, pads := hpads, wrapper := hwrapper, plain := hplain, command := hcommand }
  exact (asks_prepare hmay).meets

/-- The second driver is the first with a further port, whose receive cache is empty. -/
structure Gains (d : Driver slots) (base : Address) (id : PortId) (d' : Driver slots) : Prop where
  bases : d'.ports.bases = d.ports.bases ++ [base]
  resolve : d'.ports.resolve id = some base
  cache : d'.caches[id.index]? = some .empty

/-- The second driver has one port more than the first, and the receive cache of that port has been
emptied. -/
structure Opens (d : Driver slots) (base : Address) (id : PortId) (d' : Driver slots) : Prop where
  registered : d.ports.register base = .ok (id, d'.ports)
  config : d'.config = d.config
  caches : d'.caches = d.caches.setIfInBounds id.index .empty

theorem Opens.index_eq {id : PortId} (h : d.Opens base id d') : id.index = d.ports.size :=
  (Registry.register_eq_ok h.registered).1

theorem Opens.gains {id : PortId} (h : d.Opens base id d') : d.Gains base id d' := by
  have hresolve : d'.ports.resolve id = some base :=
    (Registry.resolve_register h.registered id).trans (if_pos rfl)
  refine ⟨(Registry.register_eq_ok h.registered).2, hresolve, ?_⟩
  have hslot : id.index < slots := index_lt_of_resolve hresolve
  rw [h.caches]
  simp [hslot]

/-- Registering a port is no event. It can only fail for want of a free slot or id. -/
theorem completes_addPort {σ : Type} {bus : Bus σ} {s s' : σ} {t : List Event}
    {result : Except InitError PortId} (h : bus.Completes (d.addPort base) s t (result, d') s') :
    t = [] ∧ s' = s ∧ d'.config = d.config ∧
      (result = .error .registryFull ∧ d' = d ∧ ¬ (d.ports.size < slots ∧ d.ports.size < PortId.limit) ∨
        ∃ id, result = .ok id ∧ d.Opens base id d') := by
  unfold addPort at h
  split at h
  · rename_i e he
    obtain ⟨rfl, hr, rfl⟩ := Bus.completes_done_iff.1 h
    obtain ⟨rfl, rfl⟩ := Prod.mk.inj hr
    have hfull : ¬ (d'.ports.size < slots ∧ d'.ports.size < PortId.limit) := by
      intro hfree
      have hok : ∃ p, d'.ports.register base = .ok p := Registry.register_isOk_iff.2 hfree
      obtain ⟨p, hp⟩ := hok
      rw [he] at hp
      cases hp
    refine ⟨rfl, rfl, rfl, .inl ⟨?_, rfl, hfull⟩⟩
    unfold Registry.register at he
    split at he
    · split at he
      · cases he
      · exact congrArg _ (Except.error.inj he).symm
    · exact congrArg _ (Except.error.inj he).symm
  · rename_i id ports he
    obtain ⟨d₁, s₁, t₁, t₂, hset, hdone, rfl⟩ := Bus.completes_bind_iff.1 h
    obtain ⟨rfl, hr, rfl⟩ := Bus.completes_done_iff.1 hdone
    obtain ⟨rfl, rfl⟩ := Prod.mk.inj hr
    obtain ⟨rfl, rfl, rfl⟩ := completes_setCache hset
    exact ⟨rfl, rfl, rfl, .inr ⟨id, rfl, he, rfl, rfl⟩⟩

/-- Registering a port asks for nothing: the slot of a new port exists. -/
theorem asks_addPort {P : Request → Prop} : (d.addPort base).Asks P fun _ => True := by
  unfold addPort
  split
  · trivial
  · rename_i id ports he
    have hslot : id.index < slots := by
      have hlength := ports.length_le
      rw [(Registry.register_eq_ok he).2, List.length_append] at hlength
      rw [(Registry.register_eq_ok he).1]
      exact hlength
    exact (asks_setCache fun hle => absurd hslot (Nat.not_lt.2 hle)).bind fun _ _ => trivial

/-- An initialization asks for what preparing the block and sending the banner do. -/
theorem asks_init {P : Request → Prop} (hprepare : MayPrepare number wrapper (d.block base) P)
    (hbanner : Transmit.Allowed (d.block base) P) :
    (d.init fuel board number wrapper base).Asks P fun _ => True := by
  by_cases ha : d.Accepts base
  · rw [init_of_accepted ha]
    refine (asks_prepare hprepare).bind fun _ _ => (asks_sendBanner hbanner).bind fun r _ => ?_
    cases r with
    | error _ => trivial
    | ok _ => exact asks_addPort
  · obtain ⟨e, -, hrefused⟩ := init_of_not_accepted ha
    rw [hrefused]
    trivial

/-- A completed initialization of an accepted base has prepared the block and then tried to send
the banner; it answers with the failure of the banner, or with the registration, which can only
fail for want of a free id. -/
theorem completes_init {σ : Type} {bus : Bus σ} {s s' : σ} {t : List Event}
    {result : Except InitError PortId} (ha : d.Accepts base)
    (h : bus.Completes (d.init fuel board number wrapper base) s t (result, d') s') :
    ∃ s₁ t₁ t₂ r, bus.Completes (prepare d.config board number wrapper (d.block base)) s t₁ () s₁ ∧
      bus.Completes (sendBanner d.config fuel (d.block base)) s₁ t₂ r s' ∧ t = t₁ ++ t₂ ∧
      d'.config = d.config ∧
      ((∃ e, r = .error e ∧ result = .error (.transmit e) ∧ d' = d) ∨
        r = .ok () ∧ (result = .error .registryFull ∧ d' = d ∧
            ¬ (d.ports.size < slots ∧ d.ports.size < PortId.limit) ∨
          ∃ id, result = .ok id ∧ d.Opens base id d')) := by
  rw [init_of_accepted ha] at h
  obtain ⟨_, s₁, t₁, u, hp, h₁, rfl⟩ := Bus.completes_bind_iff.1 h
  obtain ⟨r, s₂, t₂, t₃, hb, h₂, rfl⟩ := Bus.completes_bind_iff.1 h₁
  cases r with
  | error e =>
    obtain ⟨rfl, hr, rfl⟩ := Bus.completes_done_iff.1 h₂
    obtain ⟨rfl, rfl⟩ := Prod.mk.inj hr
    exact ⟨s₁, t₁, t₂, _, hp, hb, by rw [List.append_nil], rfl, .inl ⟨e, rfl, rfl, rfl⟩⟩
  | ok _ =>
    obtain ⟨rfl, rfl, hc, hadd⟩ := completes_addPort h₂
    exact ⟨s₁, t₁, t₂, _, hp, hb, by rw [List.append_nil], hc, .inr ⟨rfl, hadd⟩⟩

end PolledUart.Driver
