import PolledUart.Proofs.DriverState
import PolledUart.Sim.Bench

/-!
# Initializations from end to end

Preparing a block is a fixed list of actions: clocks, pads, the protocol of the wrapper, bit rate,
mode and the resets, with barriers between them (`Driver.setup`). Nothing is read, so every
initialization of a block that gets to its banner has the same events up to there, whatever the bus.
What follows is the transfer of the banner, and its result decides: the port is registered, or the
driver is as it was.

* `Program.completes_performAll_iff` — actions without a choice are a path of the bus.
* `Driver.prepare_eq` — preparing a block is the list of its actions.
* `init_from_end_to_end` — the events, the answer and the driver of an initialization.
-/

namespace PolledUart

/-- Performs some actions, one after the other. -/
def Program.performAll : List Action → Program Unit
  | [] => .done ()
  | c :: rest => .act c (performAll rest)

namespace Program

variable {σ : Type} {bus : Bus σ} {s s' : σ} {t : List Event}

@[simp] theorem performAll_nil : performAll [] = .done () := rfl

@[simp] theorem performAll_cons (c : Action) (rest : List Action) :
    performAll (c :: rest) = .act c (performAll rest) := rfl

theorem performAll_append (cs ds : List Action) :
    performAll (cs ++ ds) = (performAll cs).bind fun _ => performAll ds := by
  induction cs with
  | nil => rfl
  | cons c rest ih => rw [List.cons_append, performAll_cons, ih]; rfl

/-- **Actions without a choice** complete as themselves, wherever the bus takes them all. -/
theorem completes_performAll_iff {cs : List Action} {u : Unit} :
    bus.Completes (performAll cs) s t u s' ↔
      t = cs.map .act ∧ Bus.Path bus.Step s (cs.map .act) s' := by
  induction cs generalizing s t with
  | nil => simp [Bus.path_nil_iff]
  | cons c rest ih =>
    rw [performAll_cons, Bus.completes_act_iff, List.map_cons, Bus.path_cons_iff]
    constructor
    · rintro ⟨s₁, t₁, hact, hrest, rfl⟩
      obtain ⟨rfl, hpath⟩ := ih.1 hrest
      exact ⟨rfl, s₁, hact, hpath⟩
    · rintro ⟨rfl, s₁, hact, hpath⟩
      exact ⟨s₁, _, hact, ih.2 ⟨rfl, hpath⟩, rfl⟩

end Program

/-- A register of an addressable block is where its layout puts it. -/
theorem Block.Addressable.address?_eq {b : Block} (h : b.Addressable) (r : Register) :
    b.address? r = some (b.location r) := by
  obtain ⟨a, ha⟩ := Option.isSome_iff_exists.1 (h r)
  rw [ha, eq_location ha]

theorem Block.Addressable.write_eq {b : Block} (h : b.Addressable) (r : Register) (v : UInt32) :
    b.write r v = Program.performAll [.write (b.location r) v] :=
  write_of_address? (h.address?_eq r) v

theorem PortId.eq_of_index {p q : PortId} (h : p.index = q.index) : p = q := by
  obtain ⟨p⟩ := p
  obtain ⟨q⟩ := q
  exact congrArg PortId.mk (UInt8.toNat_inj.1 h)

theorem Registry.eq_of_bases {slots : Nat} {r r' : Registry slots} (h : r.bases = r'.bases) :
    r = r' := by
  obtain ⟨bases, _⟩ := r
  obtain ⟨bases', _⟩ := r'
  obtain rfl : bases = bases' := h
  rfl

namespace Driver

variable {slots : Nat} {config : Config} {board : Board} {number : UInt8}
  {wrapper : Option Address} {b : Block}

/-! ### The actions of an initialization -/

/-- What a board is asked to do, if it has hooks. -/
def boardHook (board : Board) (hook : Action) : List Action :=
  match board with
  | .ready => []
  | .hooks => [hook]

/-- The actions that switch a wrapper to its serial protocol. -/
def wrapperSetup (wrapper : Option Address) : List Action :=
  match wrapper with
  | none => []
  | some address => [.write address 0x60, .barrier]

/-- The actions that program a block. -/
def blockSetup (config : Config) (b : Block) : List Action :=
  [.write (b.location .csr) config.clockSelect, .barrier,
    .write (b.location .mr1) (if config.rxFlowControl then 0x80 else 0),
    .write (b.location .mr2) 0x34,
    .write (b.location .cr) Command.resetRx,
    .write (b.location .cr) Command.resetTx,
    .write (b.location .dmen) 0]

/-- Everything that is done to the hardware before the banner, in order. -/
def setup (config : Config) (board : Board) (number : UInt8) (wrapper : Option Address)
    (b : Block) : List Action :=
  boardHook board (.clock number) ++ .barrier :: (boardHook board (.pads number) ++
    .barrier :: (wrapperSetup wrapper ++ blockSetup config b))

/-- The control register of a wrapper is its first, so that its address never overflows. -/
theorem plus?_control (w : Address) : Address.plus? w Gsbi.control = some w := by
  rw [Address.plus?_eq_some_iff]
  rfl

theorem selectProtocol_eq (w : Address) :
    selectProtocol w = Program.performAll [.write w 0x60, .barrier] := by
  rw [selectProtocol, plus?_control]
  rfl

theorem programBlock_eq (h : b.Addressable) :
    programBlock config b = Program.performAll (blockSetup config b) := by
  simp only [programBlock, Block.command, h.write_eq]
  rfl

theorem boardHook_eq (board : Board) (number : UInt8) :
    board.configureClock number = Program.performAll (boardHook board (.clock number)) ∧
      board.configurePads number = Program.performAll (boardHook board (.pads number)) := by
  cases board <;> exact ⟨rfl, rfl⟩

/-- The wrapper, if there is one, is switched before the block is programmed. -/
theorem wrapperSetup_eq (wrapper : Option Address) :
    (match wrapper with
      | none => .done ()
      | some w => selectProtocol w) = Program.performAll (wrapperSetup wrapper) := by
  cases wrapper with
  | none => rfl
  | some w => exact selectProtocol_eq w

/-- **Preparing a block** is the list of its actions. -/
theorem prepare_eq (h : b.Addressable) :
    prepare config board number wrapper b =
      Program.performAll (setup config board number wrapper b) := by
  obtain ⟨hclock, hpads⟩ := boardHook_eq board number
  simp only [setup, Program.performAll_append, Program.performAll_cons, ← hclock, ← hpads,
    ← wrapperSetup_eq wrapper, ← programBlock_eq h]
  cases wrapper <;> rfl

/-! ### The banner -/

section Banner

variable {σ : Type} {bus : Bus σ} {fuel : Nat} {s s' : σ} {t : List Event}
  {r : Except IoError Unit}

/-- The banner's part of an initialization: nothing if there is no banner, and else the transfer of
its text. -/
def BannerRuns (bus : Bus σ) (config : Config) (fuel : Nat) (b : Block) (s : σ) (t : List Event)
    (r : Except IoError Unit) (s' : σ) : Prop :=
  match config.banner with
  | none => t = [] ∧ r = .ok () ∧ s' = s
  | some text => bus.run (Transmit.transmit b config.poll fuel text) s = ⟨.ok r s', t⟩

theorem completes_sendBanner_iff :
    bus.Completes (sendBanner config fuel b) s t r s' ↔ BannerRuns bus config fuel b s t r s' := by
  unfold sendBanner BannerRuns
  cases config.banner with
  | none => exact Bus.completes_done_iff
  | some text => exact Bus.completes_iff

end Banner

/-! ### The registration -/

variable {d d' : Driver slots} {base : Address}

/-- The id that the next port gets. -/
def nextPort (d : Driver slots) : PortId := ⟨UInt8.ofNat d.ports.size⟩

/-- A slot and an id are free for one more port. -/
def HasRoom (d : Driver slots) : Prop := d.ports.size < min slots PortId.limit

instance (d : Driver slots) : Decidable d.HasRoom := inferInstanceAs (Decidable (_ < _))

/-- The second driver has one port more than the first, with an empty receive cache; nothing else
differs. -/
structure Extends (d : Driver slots) (base : Address) (d' : Driver slots) : Prop where
  config : d'.config = d.config
  bases : d'.ports.bases = d.ports.bases ++ [base]
  caches : ∀ i, d'.caches[i]? = if i = d.ports.size then some .empty else d.caches[i]?

theorem HasRoom.index_nextPort (h : d.HasRoom) : d.nextPort.index = d.ports.size := by
  have hlimit : d.ports.size < 2 ^ 8 := (Nat.lt_min.1 h).2
  exact UInt8.toNat_ofNat_of_lt' hlimit

theorem HasRoom.accepts (h : d.HasRoom) (hbase : base ≠ 0) : d.Accepts base := by
  refine ⟨hbase, Bool.eq_false_iff.2 fun hfull => ?_⟩
  exact absurd (Registry.isFull_iff.1 hfull) (Nat.ne_of_lt (Nat.lt_min.1 h).1)

theorem HasRoom.getElem?_setIfInBounds (h : d.HasRoom) (cache : RxCache) (i : Nat) :
    (d.caches.setIfInBounds d.ports.size cache)[i]? =
      if i = d.ports.size then some cache else d.caches[i]? := by
  rw [Vector.getElem?_setIfInBounds]
  by_cases hi : i = d.ports.size
  · subst hi
    simp [(Nat.lt_min.1 h).1]
  · simp [hi, Ne.symm hi]

/-- Opening the next port is a matter of the table and of one cache. -/
theorem HasRoom.opens_iff (h : d.HasRoom) : d.Opens base d.nextPort d' ↔ d.Extends base d' := by
  constructor
  · intro ho
    refine ⟨ho.config, ho.gains.bases, fun i => ?_⟩
    rw [ho.caches, h.index_nextPort, h.getElem?_setIfInBounds]
  · intro he
    obtain ⟨⟨id, ports⟩, hregister⟩ := Registry.register_isOk_iff.2 (Nat.lt_min.1 h)
    obtain ⟨hid, hbases⟩ := Registry.register_eq_ok hregister
    have hports : d'.ports = ports := Registry.eq_of_bases (he.bases.trans hbases.symm)
    obtain rfl : id = d.nextPort := PortId.eq_of_index (hid.trans h.index_nextPort.symm)
    refine ⟨hports ▸ hregister, he.config, Vector.ext fun i hi => Option.some.inj ?_⟩
    rw [← Vector.getElem?_eq_getElem, ← Vector.getElem?_eq_getElem, he.caches, h.index_nextPort,
      h.getElem?_setIfInBounds]

theorem HasRoom.exists_extends (h : d.HasRoom) (base : Address) : ∃ d', d.Extends base d' := by
  obtain ⟨⟨id, ports⟩, hregister⟩ := Registry.register_isOk_iff.2 (Nat.lt_min.1 h)
  have hbases := (Registry.register_eq_ok hregister).2
  exact ⟨⟨d.config, ports, d.caches.setIfInBounds d.ports.size .empty⟩, rfl, hbases,
    h.getElem?_setIfInBounds .empty⟩

/-- **Registering a port** where there is room for it. -/
theorem HasRoom.addPort_eq (h : d.HasRoom) (he : d.Extends base d') :
    d.addPort base = .done (.ok d.nextPort, d') := by
  have hopens : d.Opens base d.nextPort d' := h.opens_iff.2 he
  have hslot : d.nextPort.index < slots := h.index_nextPort ▸ (Nat.lt_min.1 h).1
  obtain ⟨config, ports, caches⟩ := d'
  obtain ⟨hregistered, rfl, rfl⟩ := hopens
  rw [addPort, hregistered]
  simp only [setCache, dif_pos hslot, Program.pure_eq, Program.bind_eq, Program.done_bind,
    Program.done.injEq, Prod.mk.injEq, mk.injEq, true_and]
  ext i hi
  rw [Vector.getElem_set, Vector.getElem_setIfInBounds]

/-! ### Whole initializations -/

section Whole

variable {σ : Type} {bus : Bus σ} {fuel : Nat} {s s' : σ} {t : List Event}
  {result : Except InitError PortId}

/-- How the result of the banner decides an initialization. -/
inductive Settles (d : Driver slots) (base : Address) :
    Except IoError Unit → Except InitError PortId → Driver slots → Prop where
  /-- The banner has been sent, if there is one, and the port is registered. -/
  | opened {d' : Driver slots} : d.Extends base d' → Settles d base (.ok ()) (.ok d.nextPort) d'
  /-- The banner has failed, and nothing has changed. -/
  | failed {e : IoError} : Settles d base (.error e) (.error (.transmit e)) d

/-- An initialization fails only with its banner. -/
theorem Settles.of_error {r : Except IoError Unit} {e : InitError}
    (h : d.Settles base r (.error e) d') :
    ∃ cause, r = .error cause ∧ e = .transmit cause ∧ d' = d := by
  cases h with
  | failed => exact ⟨_, rfl, rfl, rfl⟩

/-- **A completed initialization**: the actions of the setup, the banner, and the registration. -/
theorem completes_init_iff (hbase : base ≠ 0) (hroom : d.HasRoom)
    (hreach : (d.block base).Addressable) :
    bus.Completes (d.init fuel board number wrapper base) s t (result, d') s' ↔
      ∃ s₁ t₁ r,
        Bus.Path bus.Step s ((setup d.config board number wrapper (d.block base)).map .act) s₁ ∧
        BannerRuns bus d.config fuel (d.block base) s₁ t₁ r s' ∧
        t = (setup d.config board number wrapper (d.block base)).map .act ++ t₁ ∧
        d.Settles base r result d' := by
  rw [init_of_accepted (hroom.accepts hbase), prepare_eq hreach]
  constructor
  · intro h
    obtain ⟨_, s₁, t₀, _, hsetup, h₁, rfl⟩ := Bus.completes_bind_iff.1 h
    obtain ⟨r, s₂, t₁, t₂, hbanner, h₂, rfl⟩ := Bus.completes_bind_iff.1 h₁
    obtain ⟨rfl, hpath⟩ := Program.completes_performAll_iff.1 hsetup
    refine ⟨s₁, t₁, r, hpath, ?_⟩
    cases r with
    | error e =>
      obtain ⟨rfl, heq, rfl⟩ := Bus.completes_done_iff.1 h₂
      obtain ⟨rfl, rfl⟩ := Prod.mk.inj heq
      exact ⟨completes_sendBanner_iff.1 hbanner, by rw [List.append_nil], .failed⟩
    | ok _ =>
      obtain ⟨d₁, hd₁⟩ := hroom.exists_extends base
      rw [hroom.addPort_eq hd₁] at h₂
      obtain ⟨rfl, heq, rfl⟩ := Bus.completes_done_iff.1 h₂
      obtain ⟨rfl, rfl⟩ := Prod.mk.inj heq
      exact ⟨completes_sendBanner_iff.1 hbanner, by rw [List.append_nil], .opened hd₁⟩
  · rintro ⟨s₁, t₁, r, hpath, hbanner, rfl, hsettles⟩
    have hsetup : bus.Completes (Program.performAll _) s _ () s₁ :=
      Program.completes_performAll_iff.2 ⟨rfl, hpath⟩
    refine Bus.completes_bind_iff.2 ⟨_, s₁, _, t₁, hsetup, Bus.completes_bind_iff.2
      ⟨r, s', t₁, [], completes_sendBanner_iff.2 hbanner, ?_, (List.append_nil t₁).symm⟩, rfl⟩
    cases hsettles with
    | failed => exact .done
    | opened he =>
      dsimp only
      rw [hroom.addPort_eq he]
      exact .done

end Whole

end Driver

/-! ### Sessions -/

section Sessions

variable {σ κ : Type} {slots : Nat} {bus : Bus σ} {operate : κ → σ → Option σ}
  {x x' : Session σ slots} {entries : List (Entry slots κ)}

/-- A call that brings up no port leaves the table of ports as it was. -/
theorem Driver.Leaves.bases_of_none {d d' : Driver slots} {c : Call} {reply : Reply}
    {t : List Event} (h : d.Leaves c reply d')
    (hnone : Entry.broughtUp (.call d c reply t : Entry slots κ) = none) :
    d'.ports.bases = d.ports.bases := by
  cases h with
  | failed => rfl
  | used _ _ => rfl
  | opened _ _ => cases hnone

/-- A history that brings up no port leaves the table of ports as it was. -/
theorem bases_of_history (h : History bus operate x entries x')
    (hnone : entries.filterMap Entry.broughtUp = []) :
    x'.driver.ports.bases = x.driver.ports.bases := by
  induction h with
  | nil => rfl
  | control _ _ ih => exact ih hnone
  | @call x x₁ _ _ c reply t _ hperform _ ih =>
    obtain ⟨hcall, hrest⟩ := List.forall_mem_cons.1 (List.filterMap_eq_nil_iff.1 hnone)
    rw [ih (List.filterMap_eq_nil_iff.2 hrest)]
    have hleaves := Driver.leaves_of_completes (Session.perform_eq_ok_iff.1 hperform)
    exact hleaves.bases_of_none hcall

theorem perform_init_iff {fuel : Nat} {board : Board} {number : UInt8}
    {wrapper : Option Address} {base : Address} {reply : Reply} {t : List Event} :
    Session.perform bus fuel (.init board number wrapper base) x = ⟨.ok reply x', t⟩ ↔
      ∃ result, reply = .port result ∧ bus.Completes
        (x.driver.init fuel board number wrapper base) x.bus t (result, x'.driver) x'.bus := by
  rw [Session.perform_eq_ok_iff]
  constructor
  · intro h
    obtain ⟨⟨result, d⟩, hrun, heq⟩ := Bus.completes_bind_done_iff.1 h
    obtain ⟨rfl, rfl⟩ := Prod.mk.inj heq
    exact ⟨result, rfl, hrun⟩
  · rintro ⟨result, rfl, hrun⟩
    exact Bus.completes_bind_done_iff.2 ⟨_, hrun, rfl⟩

/-- **An initialization from end to end.** Where the base and a port are to be had, an
initialization that ends has performed the setup, from the clocks to the data mover, with its
barriers, and then sent the banner, and has done nothing else. If the banner has been sent, or there
is none, the next port is registered with an empty cache; if it has failed, so has the
initialization, and the driver is as before: the next port to come up, whatever happens until then,
gets the id that this one would have had. -/
theorem init_from_end_to_end {fuel : Nat} {board : Board} {number : UInt8}
    {wrapper : Option Address} {base : Address} {reply : Reply} {t : List Event}
    (hbase : base ≠ 0) (hroom : x.driver.HasRoom) (hreach : (x.driver.block base).Addressable) :
    (Session.perform bus fuel (.init board number wrapper base) x = ⟨.ok reply x', t⟩ ↔
      ∃ s₁ t₁ r result,
        Bus.Path bus.Step x.bus
          ((Driver.setup x.driver.config board number wrapper (x.driver.block base)).map .act) s₁ ∧
        Driver.BannerRuns bus x.driver.config fuel (x.driver.block base) s₁ t₁ r x'.bus ∧
        t = (Driver.setup x.driver.config board number wrapper (x.driver.block base)).map .act ++
          t₁ ∧
        x.driver.Settles base r result x'.driver ∧ reply = .port result) ∧
    (∀ e, Session.perform bus fuel (.init board number wrapper base) x =
        ⟨.ok (.port (.error e)) x', t⟩ →
      ∀ y, History bus operate x' entries y → entries.filterMap Entry.broughtUp = [] →
      ∀ fuel' board' number' wrapper' base' id y' u,
        Session.perform bus fuel' (.init board' number' wrapper' base') y =
            ⟨.ok (.port (.ok id)) y', u⟩ →
          id = x.driver.nextPort) := by
  constructor
  · rw [perform_init_iff]
    constructor
    · rintro ⟨result, rfl, hrun⟩
      obtain ⟨s₁, t₁, r, hpath, hbanner, ht, hsettles⟩ :=
        (Driver.completes_init_iff hbase hroom hreach).1 hrun
      exact ⟨s₁, t₁, r, result, hpath, hbanner, ht, hsettles, rfl⟩
    · rintro ⟨s₁, t₁, r, result, hpath, hbanner, ht, hsettles, rfl⟩
      exact ⟨result, rfl, (Driver.completes_init_iff hbase hroom hreach).2
        ⟨s₁, t₁, r, hpath, hbanner, ht, hsettles⟩⟩
  · intro e h y hhistory hnone fuel' board' number' wrapper' base' id y' u hlater
    obtain ⟨_, hresult, hrun⟩ := perform_init_iff.1 h
    obtain rfl := Reply.port.inj hresult
    obtain ⟨_, _, _, -, -, -, hsettles⟩ := (Driver.completes_init_iff hbase hroom hreach).1 hrun
    obtain ⟨_, -, -, hsame⟩ := hsettles.of_error
    have hopens := (Driver.leaves_of_completes (Session.perform_eq_ok_iff.1 hlater)).opens
    refine PortId.eq_of_index (hopens.index_eq.trans ?_)
    rw [hroom.index_nextPort, Registry.size, Registry.size, bases_of_history hhistory hnone, hsame]

/-- The cause of an initialization that has failed, with the session after it and the events. -/
def Run.initError? : Run (Session σ slots) Reply →
    Option (InitError × Session σ slots × List Event)
  | ⟨.ok (.port (.error e)) x, t⟩ => some (e, x, t)
  | _ => none

theorem Run.eq_of_initError? {r : Run (Session σ slots) Reply} {e : InitError} {t : List Event}
    (h : r.initError? = some (e, x, t)) : r = ⟨.ok (.port (.error e)) x, t⟩ := by
  unfold Run.initError? at h
  split at h
  · cases h
    rfl
  · cases h

/-- A second port whose transmitter is stuck: after the setup two looks at the interrupt status, and
the port does not come up. Once the transmitter is free again it does, with the same id. -/
theorem init_from_end_to_end_stuck :
    ∃ (x x' x'' : Session Sim.Bench 2) (s₁ : Sim.Bench) (u : List Event) (id : PortId),
      x.driver.ports.bases = [0x1000] ∧ x.driver.config.banner = some [0x68, 0x69, 0x0a] ∧
      Session.perform Sim.Bench.bus 0 (.init .hooks 3 (some 0x5000) 0x2000) x =
        ⟨.ok (.port (.error (.transmit .timeout))) x',
          [.act (.clock 3), .act .barrier, .act (.pads 3), .act .barrier,
            .act (.write 0x5000 0x60), .act .barrier,
            .act (.write 0x20a0 0xff), .act .barrier, .act (.write 0x2000 0x80),
            .act (.write 0x2004 0x34), .act (.write 0x20a8 0x10), .act (.write 0x20a8 0x20),
            .act (.write 0x203c 0),
            .read 0x20a4 0, .read 0x20b4 0, .act (.delay 1), .read 0x20b4 0]⟩ ∧
      Sim.Bench.bus.run (Transmit.transmit (x.driver.block 0x2000) (.budget 2) 0
          [0x68, 0x69, 0x0a]) s₁ = ⟨.ok (.error .timeout) x'.bus,
        [.read 0x20a4 0, .read 0x20b4 0, .act (.delay 1), .read 0x20b4 0]⟩ ∧
      Session.perform Sim.Bench.bus 0 (.init .hooks 3 (some 0x5000) 0x2000)
          ⟨x'.driver, { x'.bus with txStuck := false }⟩ = ⟨.ok (.port (.ok id)) x'', u⟩ ∧
        id = ⟨1⟩ := by
  let driver : Driver 2 :=
    { config := { Config.standard with banner := some [0x68, 0x69, 0x0a], poll := .budget 2 }
      ports := ⟨[0x1000], by decide⟩
      caches := .replicate 2 .empty }
  let x : Session Sim.Bench 2 := ⟨driver, { Sim.Bench.new 0x2000 .blsp with txStuck := true }⟩
  have hroom : x.driver.HasRoom := by decide
  have hreach : (x.driver.block 0x2000).Addressable := by
    intro r
    cases r <;> rfl
  let call : Call := .init .hooks 3 (some 0x5000) 0x2000
  let events : List Event :=
    [.act (.clock 3), .act .barrier, .act (.pads 3), .act .barrier,
      .act (.write 0x5000 0x60), .act .barrier,
      .act (.write 0x20a0 0xff), .act .barrier, .act (.write 0x2000 0x80),
      .act (.write 0x2004 0x34), .act (.write 0x20a8 0x10), .act (.write 0x20a8 0x20),
      .act (.write 0x203c 0),
      .read 0x20a4 0, .read 0x20b4 0, .act (.delay 1), .read 0x20b4 0]
  have hrun : ((Session.perform Sim.Bench.bus 0 call x).initError?.bind fun r =>
      (Session.replayPort Sim.Bench.bus Sim.Bench.control 0 call []
        ⟨r.2.1.driver, { r.2.1.bus with txStuck := false }⟩).map fun _ => (r.1, r.2.2)) =
      some (.transmit .timeout, events) := by
    decide +kernel
  obtain ⟨⟨e, x', t⟩, hfirst, hrest⟩ := Option.bind_eq_some_iff.1 hrun
  obtain ⟨⟨id, x'', entries, _⟩, hsecond, heq⟩ := Option.map_eq_some_iff.1 hrest
  obtain ⟨rfl, rfl⟩ := Prod.mk.inj heq
  have hfails := Run.eq_of_initError? hfirst
  obtain ⟨⟨u, hopens⟩, -⟩ := history_of_replayPort hsecond
  have hfree : History Sim.Bench.bus Sim.Bench.control x' [.control (.stuck false)]
      ⟨x'.driver, { x'.bus with txStuck := false }⟩ := .control rfl .nil
  obtain ⟨hends, hlater⟩ := init_from_end_to_end (by decide) hroom hreach
  obtain ⟨s₁, t₁, r, result, -, hbanner, ht, hsettles, hreply⟩ := hends.1 hfails
  obtain rfl := @List.append_cancel_left _ (events.take 13) _ _ ht
  obtain rfl := Reply.port.inj hreply
  obtain ⟨cause, rfl, hcause, -⟩ := hsettles.of_error
  obtain rfl := InitError.transmit.inj hcause
  exact ⟨x, x', x'', s₁, u, id, rfl, rfl, hfails, hbanner, hopens,
    hlater _ hfails _ hfree rfl _ _ _ _ _ _ _ _ hopens⟩

end Sessions

end PolledUart
