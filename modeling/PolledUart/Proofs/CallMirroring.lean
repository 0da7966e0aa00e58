import PolledUart.Proofs.BringUp
import PolledUart.Proofs.CallEffects
import PolledUart.Proofs.Mirroring

/-!
# Two drivers side by side

Two drivers with the same ports may differ in their register layout, in how long they wait,
and in the receive caches of some ports (`Driver.Pair`). A call made on both then mirrors
itself: the two programs go on side by side, answer alike, and leave two drivers that differ
in nothing else (`Driver.mirrors_call`). If the second driver has more patience, the first
may drop out by a timeout. Formatted output does not tell why it failed, so calls are
compared with the causes of their failures told (`Call.withCause`).
-/

namespace PolledUart

open Program

/-! ### Causes of failures -/

/-- Why a call failed, if its answer tells. -/
def Reply.cause? : Reply → Option IoError
  | .port (.error (.transmit e)) => some e
  | .done (.error e) => some e
  | .byte (.error e) => some e
  | .drained _ stop => stop
  | .count (.error e) => some e
  | .buffer _ (.error e) => some e
  | .filled _ (.error (.io e)) => some e
  | _ => none

namespace Driver

variable {slots : Nat}

/-- Sends the pieces of a text one after the other, up to the first failure, and tells why that
failed. -/
def sendPieces (d : Driver slots) (fuel : Nat) (port : PortId) :
    List (List UInt8) → Program (Except IoError Unit)
  | [] => .done (.ok ())
  | piece :: rest => (d.writeAll fuel port piece).bind fun
    | .error e => .done (.error e)
    | .ok () => sendPieces d fuel port rest

/-- The answer of formatted output to a text that was sent or was not. -/
def formatted (r : Except IoError Unit) : Except FormatError Unit :=
  r.mapError fun _ => .failed

variable {d : Driver slots} {fuel : Nat} {port : PortId}

theorem writeText_eq (text : List UInt8) :
    d.writeText fuel port text =
      (d.writeAll fuel port text).bind fun r => .done (formatted r) := by
  unfold writeText writeAll writeBytes
  split
  · rfl
  · simp only [bind_eq, bind_assoc]
    congr 1
    funext r
    cases r <;> rfl

theorem writePieces_eq (pieces : List (List UInt8)) :
    d.writePieces fuel port pieces =
      (d.sendPieces fuel port pieces).bind fun r => .done (formatted r) := by
  induction pieces with
  | nil => rfl
  | cons piece rest ih =>
    rw [writePieces, sendPieces, writeText_eq]
    simp only [bind_eq, bind_assoc]
    congr 1
    funext r
    cases r with
    | error e => rfl
    | ok u => exact ih

end Driver

/-- The program of a call that tells, beside the answer, why the call failed. -/
def Call.withCause {slots : Nat} (c : Call) (fuel : Nat) (d : Driver slots) :
    Program ((Option IoError × Reply) × Driver slots) :=
  match c with
  | .writeText port text => (d.writeAll fuel port text).bind fun r =>
    .done (((Reply.done r).cause?, .text (Driver.formatted r)), d)
  | .writePieces port pieces => (d.sendPieces fuel port pieces).bind fun r =>
    .done (((Reply.done r).cause?, .text (Driver.formatted r)), d)
  | c => (c.program fuel d).bind fun x => .done ((x.1.cause?, x.1), x.2)

/-- Without the cause it is the program of the call. -/
theorem Call.program_eq {slots : Nat} (c : Call) (fuel : Nat) (d : Driver slots) :
    c.program fuel d = (c.withCause fuel d).bind fun x => .done (x.1.2, x.2) := by
  have hplain : ∀ p : Program (Reply × Driver slots),
      p = (p.bind fun x => .done ((x.1.cause?, x.1), x.2)).bind fun x => .done (x.1.2, x.2) := by
    intro p
    rw [bind_assoc]
    exact (bind_done p).symm
  cases c with
  | writeText port text =>
    simp only [program, withCause, bind_eq, Driver.writeText_eq, bind_assoc]
    rfl
  | writePieces port pieces =>
    simp only [program, withCause, bind_eq, Driver.writePieces_eq, bind_assoc]
    rfl
  | _ => exact hplain _

/-! ### Pairs of drivers -/

/-- The two configurations bring up and greet a port alike. -/
structure Config.Alike (config config' : Config) : Prop where
  clockSelect : config'.clockSelect = config.clockSelect
  flowControl : config'.rxFlowControl = config.rxFlowControl
  banner : config'.banner = config.banner

section Pairs

variable {slots : Nat} {Q : Request → Request → Prop} {T : Prop} {S : Nat → Prop}
  {config config' : Config} {ports : Registry slots} {d d' : Driver slots} {fuel fuel' : Nat}
  {port : PortId}

namespace Driver

/-- Two drivers with the same ports, each with a configuration of its own. The receive caches of
the slots of `S` are the same. -/
structure Pair (S : Nat → Prop) (config config' : Config) (ports : Registry slots)
    (d d' : Driver slots) : Prop where
  config_eq : d.config = config
  config_eq' : d'.config = config'
  ports_eq : d.ports = ports
  ports_eq' : d'.ports = ports
  caches : ∀ i, S i → d'.caches[i]? = d.caches[i]?

/-- Drivers with all receive caches the same differ in nothing but their configurations. -/
theorem Pair.eq_withConfig (h : Pair (fun _ => True) config config' ports d d') :
    d' = { d with config := config' } := by
  obtain ⟨rfl, rfl, rfl, hports, hcaches⟩ := h
  obtain ⟨config', ports', caches'⟩ := d'
  dsimp only at hports
  obtain rfl : caches' = d.caches := by
    refine Vector.ext fun i hi => ?_
    have hsame := hcaches i trivial
    rw [Vector.getElem?_eq_getElem hi, Vector.getElem?_eq_getElem hi] at hsame
    exact Option.some.inj hsame
  rw [hports]

/-- The same value, with two drivers. -/
def Pair.Result {α : Type} (S : Nat → Prop) (config config' : Config) (ports : Registry slots)
    (x y : α × Driver slots) : Prop :=
  y.1 = x.1 ∧ Pair S config config' ports x.2 y.2

/-- The block of a port has a twin in the other layout, if the port is registered. -/
def TwinAt (Q : Request → Request → Prop) (config config' : Config) (ports : Registry slots)
    (port : PortId) : Prop :=
  ∀ base, ports.resolve port = some base →
    Block.Twin Q ⟨base, config.registers⟩ ⟨base, config'.registers⟩

/-! ### Sending -/

theorem mirrors_onPort {α : Type} {op op' : Block → Program (Except IoError α)}
    (h : Pair S config config' ports d d')
    (hop : ∀ base, ports.resolve port = some base →
      Mirrors Q T TimedOut Eq (op ⟨base, config.registers⟩) (op' ⟨base, config'.registers⟩)) :
    Mirrors Q T TimedOut Eq (d.onPort port op) (d'.onPort port op') := by
  unfold onPort block
  rw [h.config_eq, h.config_eq', h.ports_eq, h.ports_eq']
  split
  · exact .done rfl
  · rename_i base hport
    exact hop base hport

section Sending

variable (h : Pair S config config' ports d d') (htwin : TwinAt Q config config' ports port)
  (hpace : config.poll.Pace Q T fuel config'.poll fuel')

include h htwin hpace

theorem mirrors_write (data : List UInt8) :
    Mirrors Q T TimedOut Eq (d.write fuel port data) (d'.write fuel' port data) := by
  refine mirrors_onPort h fun base hport => ?_
  rw [h.config_eq, h.config_eq']
  exact Transmit.mirrors_transmit (htwin base hport) hpace data

theorem mirrors_flush :
    Mirrors Q T TimedOut Eq (d.flush fuel port) (d'.flush fuel' port) := by
  refine mirrors_onPort h fun base hport => ?_
  rw [h.config_eq, h.config_eq']
  exact Transmit.mirrors_drain (htwin base hport) hpace

theorem mirrors_writeBytes (data : List UInt8) :
    Mirrors Q T TimedOut Eq (d.writeBytes fuel port data) (d'.writeBytes fuel' port data) := by
  unfold writeBytes
  split
  · exact .done rfl
  · refine (mirrors_write h htwin hpace data).bind ?_ ?_
    · rintro r _ rfl
      cases r <;> exact .done rfl
    · rintro r hT rfl
      exact ⟨hT, rfl⟩

theorem mirrors_writeAll (data : List UInt8) :
    Mirrors Q T TimedOut Eq (d.writeAll fuel port data) (d'.writeAll fuel' port data) := by
  unfold writeAll
  split
  · exact .done rfl
  · refine (mirrors_writeBytes h htwin hpace data).bind ?_ ?_
    · rintro r _ rfl
      cases r <;> exact .done rfl
    · rintro r hT rfl
      exact ⟨hT, rfl⟩

theorem mirrors_sendPieces (pieces : List (List UInt8)) :
    Mirrors Q T TimedOut Eq (d.sendPieces fuel port pieces)
      (d'.sendPieces fuel' port pieces) := by
  induction pieces with
  | nil => exact .done rfl
  | cons piece rest ih =>
    refine (mirrors_writeAll h htwin hpace piece).bind ?_ ?_
    · rintro r _ rfl
      cases r with
      | error _ => exact .done rfl
      | ok _ => exact ih
    · rintro r hT rfl
      exact ⟨hT, rfl⟩

end Sending

/-! ### Receiving -/

theorem mirrors_setCache {L : Driver slots → Prop} (h : Pair S config config' ports d d')
    (slot : Nat) (cache : RxCache) :
    Mirrors Q T L (Pair S config config' ports) (d.setCache slot cache)
      (d'.setCache slot cache) := by
  unfold setCache
  split
  · rename_i hslot
    refine .done ⟨h.config_eq, h.config_eq', h.ports_eq, h.ports_eq', fun i hi => ?_⟩
    rw [Vector.getElem?_set, Vector.getElem?_set, h.caches i hi]
  · exact .fault

theorem mirrors_takeFrom {L : Except IoError UInt8 × Driver slots → Prop}
    (h : Pair S config config' ports d d') (slot : Nat) (cache : RxCache) :
    Mirrors Q T L (Pair.Result S config config' ports) (d.takeFrom slot cache)
      (d'.takeFrom slot cache) := by
  unfold takeFrom
  split
  · exact .done ⟨rfl, h⟩
  · exact (mirrors_setCache h slot _).seq fun _ _ hpair => .done ⟨rfl, hpair⟩

theorem mirrors_cache {L : RxCache → Prop} (h : Pair S config config' ports d d') {slot : Nat}
    (hS : S slot) : Mirrors Q T L Eq (d.cache slot) (d'.cache slot) := by
  unfold cache
  split
  · rename_i hslot
    have hsame := h.caches slot hS
    rw [Vector.getElem?_eq_getElem hslot, Vector.getElem?_eq_getElem hslot] at hsame
    exact .done (Option.some.inj hsame).symm
  · exact .fault

section Receiving

variable (hS : S port.index) (htwin : TwinAt Q config config' ports port)
  (hturns : fuel' = fuel ∨ T ∧ fuel ≤ fuel')

include hS htwin hturns

/-- **One character** is read alike. -/
theorem mirrors_getChar {L : Except IoError UInt8 × Driver slots → Prop} (wait : Bool)
    (h : Pair S config config' ports d d') :
    Mirrors Q T L (Pair.Result S config config' ports) (d.getChar fuel port wait)
      (d'.getChar fuel' port wait) := by
  unfold getChar block
  rw [h.config_eq, h.config_eq', h.ports_eq, h.ports_eq']
  split
  · exact .done ⟨rfl, h⟩
  · rename_i base hport
    have hword : Mirrors Q T (fun _ => False) Eq
        (fetchWord fuel wait ⟨base, config.registers⟩)
        (fetchWord fuel' wait ⟨base, config'.registers⟩) := by
      unfold fetchWord
      split
      · refine (Receive.mirrors_fetchWaiting (htwin base hport) hturns).seq ?_
        rintro r _ rfl
        exact .done rfl
      · exact Receive.mirrors_fetch (htwin base hport)
    refine (mirrors_cache h hS).seq ?_
    rintro cache _ rfl
    split
    · refine hword.seq ?_
      rintro r _ rfl
      cases r with
      | none => exact .done ⟨rfl, h⟩
      | some _ => exact mirrors_takeFrom h _ _
    · exact mirrors_takeFrom h _ _

theorem mirrors_drain {L : (List UInt8 × Option IoError) × Driver slots → Prop} (max : Nat)
    (h : Pair S config config' ports d d') :
    Mirrors Q T L (Pair.Result S config config' ports) (d.drain fuel port max)
      (d'.drain fuel' port max) := by
  induction max generalizing d d' L with
  | zero => exact .done ⟨rfl, h⟩
  | succ max ih =>
    refine (mirrors_getChar hS htwin hturns false h).seq ?_
    rintro ⟨r, d₁⟩ ⟨r', d₁'⟩ ⟨hr, h₁⟩
    dsimp only at hr h₁
    subst hr
    cases r' with
    | error _ => exact .done ⟨rfl, h₁⟩
    | ok _ =>
      refine (ih h₁).seq ?_
      rintro ⟨x, d₂⟩ ⟨x', d₂'⟩ ⟨hx, h₂⟩
      dsimp only at hx h₂
      subst hx
      exact .done ⟨rfl, h₂⟩

theorem mirrors_takeReady {L : Filled IoError Unit × Driver slots → Prop} (room : Nat)
    (h : Pair S config config' ports d d') :
    Mirrors Q T L (Pair.Result S config config' ports) (d.takeReady fuel port room)
      (d'.takeReady fuel' port room) := by
  induction room generalizing d d' L with
  | zero => exact .done ⟨rfl, h⟩
  | succ room ih =>
    refine (mirrors_getChar hS htwin hturns false h).seq ?_
    rintro ⟨r, d₁⟩ ⟨r', d₁'⟩ ⟨hr, h₁⟩
    dsimp only at hr h₁
    subst hr
    cases r' with
    | error e => cases e <;> exact .done ⟨rfl, h₁⟩
    | ok _ =>
      refine (ih h₁).seq ?_
      rintro ⟨x, d₂⟩ ⟨x', d₂'⟩ ⟨hx, h₂⟩
      dsimp only at hx h₂
      subst hx
      exact .done ⟨rfl, h₂⟩

theorem mirrors_readBytes {L : Filled IoError Nat × Driver slots → Prop} (room : Nat)
    (h : Pair S config config' ports d d') :
    Mirrors Q T L (Pair.Result S config config' ports) (d.readBytes fuel port room)
      (d'.readBytes fuel' port room) := by
  cases room with
  | zero => exact .done ⟨rfl, h⟩
  | succ room =>
    refine (mirrors_getChar hS htwin hturns true h).seq ?_
    rintro ⟨r, d₁⟩ ⟨r', d₁'⟩ ⟨hr, h₁⟩
    dsimp only at hr h₁
    subst hr
    cases r' with
    | error _ => exact .done ⟨rfl, h₁⟩
    | ok _ =>
      refine (mirrors_takeReady hS htwin hturns room h₁).seq ?_
      rintro ⟨x, d₂⟩ ⟨x', d₂'⟩ ⟨hx, h₂⟩
      dsimp only at hx h₂
      subst hx
      exact .done ⟨rfl, h₂⟩

theorem mirrors_fillFrom {L : Filled FillError Unit × Driver slots → Prop} (reads room : Nat)
    (h : Pair S config config' ports d d') :
    Mirrors Q T L (Pair.Result S config config' ports) (d.fillFrom fuel port reads room)
      (d'.fillFrom fuel' port reads room) := by
  induction reads generalizing d d' room L with
  | zero => cases room <;> exact .done ⟨rfl, h⟩
  | succ reads ih =>
    cases room with
    | zero => exact .done ⟨rfl, h⟩
    | succ room =>
      refine (mirrors_readBytes hS htwin hturns (room + 1) h).seq ?_
      rintro ⟨filled, d₁⟩ ⟨filled', d₁'⟩ ⟨hfilled, h₁⟩
      dsimp only at hfilled h₁
      subst hfilled
      obtain ⟨bytes, result⟩ := filled'
      match result with
      | .error _ => exact .done ⟨rfl, h₁⟩
      | .ok 0 => exact .done ⟨rfl, h₁⟩
      | .ok (n + 1) =>
        refine (ih _ h₁).seq ?_
        rintro ⟨x, d₂⟩ ⟨x', d₂'⟩ ⟨hx, h₂⟩
        dsimp only at hx h₂
        subst hx
        exact .done ⟨rfl, h₂⟩

end Receiving

/-! ### Bringing up a port -/

section BringingUp

variable {board : Board} {number : UInt8} {wrapper : Option Address} {base : Address}

theorem mirrors_programBlock {L : Unit → Prop} {b b' : Block} (h : Block.Twin Q b b')
    (hconfig : config.Alike config') :
    Mirrors Q T L Eq (programBlock config b) (programBlock config' b') := by
  unfold programBlock Config.flowControlBits
  rw [hconfig.clockSelect, hconfig.flowControl]
  have hbarrier : Mirrors Q T (fun _ => False) Eq (perform .barrier) (perform .barrier) :=
    mirrors_perform (h.aside .barrier fun _ _ => nofun)
  exact (h.mirrors_write (by decide) _).seq fun _ _ _ => hbarrier.seq fun _ _ _ =>
    (h.mirrors_write (by decide) _).seq fun _ _ _ =>
    (h.mirrors_write (by decide) _).seq fun _ _ _ => (h.mirrors_command _).seq fun _ _ _ =>
    (h.mirrors_command _).seq fun _ _ _ => h.mirrors_write (by decide) _

theorem mirrors_prepare {L : Unit → Prop} {b b' : Block} (h : Block.Twin Q b b')
    (hwrapper : ∀ w ∈ wrapper, ∀ v, Q (.act (.write (w + Gsbi.control) v))
      (.act (.write (w + Gsbi.control) v))) (hconfig : config.Alike config') :
    Mirrors Q T L Eq (prepare config board number wrapper b)
      (prepare config' board number wrapper b') := by
  have hbarrier : Mirrors Q T (fun _ => False) Eq (perform .barrier) (perform .barrier) :=
    mirrors_perform (h.aside .barrier fun _ _ => nofun)
  have hclock : Mirrors Q T (fun _ => False) Eq (board.configureClock number)
      (board.configureClock number) := by
    cases board with
    | ready => exact .done rfl
    | hooks => exact mirrors_perform (h.aside (.clock number) fun _ _ => nofun)
  have hpads : Mirrors Q T (fun _ => False) Eq (board.configurePads number)
      (board.configurePads number) := by
    cases board with
    | ready => exact .done rfl
    | hooks => exact mirrors_perform (h.aside (.pads number) fun _ _ => nofun)
  have hprogram := mirrors_programBlock (T := T) (L := L) h hconfig
  refine hclock.seq fun _ _ _ => hbarrier.seq fun _ _ _ => hpads.seq fun _ _ _ =>
    hbarrier.seq fun _ _ _ => ?_
  cases wrapper with
  | none => exact hprogram
  | some w =>
    have hselect : Mirrors Q T (fun _ => False) Eq (selectProtocol w) (selectProtocol w) := by
      unfold selectProtocol
      cases ha : Address.plus? w Gsbi.control with
      | none => exact .fault
      | some a =>
        obtain rfl := Address.eq_add_of_plus? ha
        exact (mirrors_perform (hwrapper w rfl _)).seq fun _ _ _ =>
          mirrors_perform (h.aside .barrier fun _ _ => nofun)
    exact hselect.seq fun _ _ _ => hprogram

theorem mirrors_sendBanner {b b' : Block} (h : Block.Twin Q b b')
    (hpace : config.poll.Pace Q T fuel config'.poll fuel') (hconfig : config.Alike config') :
    Mirrors Q T TimedOut Eq (sendBanner config fuel b) (sendBanner config' fuel' b') := by
  unfold sendBanner
  rw [hconfig.banner]
  split
  · exact .done rfl
  · exact Transmit.mirrors_transmit h hpace _

/-- Registering a port on both drivers gives it the same id. -/
theorem mirrors_addPort {L : Except InitError PortId × Driver slots → Prop}
    (h : Pair S config config' ports d d') (base : Address) :
    Mirrors Q T L (fun x y => ∃ ports', Pair.Result S config config' ports' x y) (d.addPort base)
      (d'.addPort base) := by
  unfold addPort
  rw [h.ports_eq, h.ports_eq']
  split
  · exact .done ⟨ports, rfl, h⟩
  · rename_i id ports' _
    have hadded : Pair S config config' ports' { d with ports := ports' }
        { d' with ports := ports' } :=
      ⟨h.config_eq, h.config_eq', rfl, rfl, h.caches⟩
    exact (mirrors_setCache hadded _ _).seq fun _ _ hpair => .done ⟨ports', rfl, hpair⟩

/-- **An initialization** goes alike on both drivers. -/
theorem mirrors_init (h : Pair S config config' ports d d')
    (htwin : Block.Twin Q ⟨base, config.registers⟩ ⟨base, config'.registers⟩)
    (hwrapper : ∀ w ∈ wrapper, ∀ v, Q (.act (.write (w + Gsbi.control) v))
      (.act (.write (w + Gsbi.control) v)))
    (hpace : config.poll.Pace Q T fuel config'.poll fuel') (hconfig : config.Alike config') :
    Mirrors Q T (fun x => x.1 = .error (.transmit .timeout))
      (fun x y => ∃ ports', Pair.Result S config config' ports' x y)
      (d.init fuel board number wrapper base) (d'.init fuel' board number wrapper base) := by
  have haccepts : d'.Accepts base ↔ d.Accepts base := by
    unfold Accepts
    rw [h.ports_eq, h.ports_eq']
  by_cases ha : d.Accepts base
  · rw [init_of_accepted ha, init_of_accepted (haccepts.2 ha), block, block, h.config_eq,
      h.config_eq']
    refine (mirrors_prepare htwin hwrapper hconfig).seq fun _ _ _ =>
      (mirrors_sendBanner htwin hpace hconfig).bind ?_ ?_
    · rintro r _ rfl
      cases r with
      | error _ => exact .done ⟨ports, rfl, h⟩
      | ok _ => exact mirrors_addPort h base
    · rintro r hT rfl
      exact ⟨hT, rfl⟩
  · unfold init
    rw [h.ports_eq, h.ports_eq']
    have hrefused : base = 0 ∨ ports.isFull = true := by
      rw [Accepts, h.ports_eq] at ha
      by_cases h0 : base = 0
      · exact .inl h0
      · exact .inr (by simpa [h0] using ha)
    rcases hrefused with h0 | hfull
    · rw [if_pos h0, if_pos h0]
      exact .done ⟨ports, rfl, h⟩
    · rw [if_pos hfull, if_pos hfull]
      split <;> exact .done ⟨ports, rfl, h⟩

end BringingUp

/-! ### Any call -/

/-- The call failed for a timeout. -/
def CallTimedOut (x : (Option IoError × Reply) × Driver slots) : Prop := x.1.1 = some .timeout

/-- What sends leaves both drivers as they are. -/
theorem mirrors_sent {α β : Type} {p p' : Program (Except IoError α)} {L : β × Driver slots → Prop}
    (h : Pair S config config' ports d d') (f : Except IoError α → β)
    (hf : ∀ r, TimedOut r → L (f r, d)) (hp : Mirrors Q T TimedOut Eq p p') :
    Mirrors Q T L (fun x y => ∃ ports', Pair.Result S config config' ports' x y)
      (p.bind fun r => .done (f r, d)) (p'.bind fun r => .done (f r, d')) := by
  refine hp.bind ?_ fun r hT hr => ⟨hT, hf r hr⟩
  rintro r _ rfl
  exact .done ⟨ports, rfl, h⟩

/-- What reads answers alike on both drivers. -/
theorem mirrors_received {α β : Type} {p p' : Program (α × Driver slots)}
    {L : β × Driver slots → Prop} (f : α → β)
    (hp : Mirrors Q T (fun _ => False) (Pair.Result S config config' ports) p p') :
    Mirrors Q T L (fun x y => ∃ ports', Pair.Result S config config' ports' x y)
      (p.bind fun x => .done (f x.1, x.2)) (p'.bind fun x => .done (f x.1, x.2)) := by
  refine hp.seq ?_
  rintro x y ⟨hvalue, hpair⟩
  exact .done ⟨ports, congrArg f hvalue, hpair⟩

/-- Where the answer tells the cause, the cause is told alike. -/
theorem mirrors_told {p p' : Program (Reply × Driver slots)}
    (hp : Mirrors Q T (fun x => x.1.cause? = some .timeout)
      (fun x y => ∃ ports', Pair.Result S config config' ports' x y) p p') :
    Mirrors Q T CallTimedOut (fun x y => ∃ ports', Pair.Result S config config' ports' x y)
      (p.bind fun x => .done ((x.1.cause?, x.1), x.2))
      (p'.bind fun x => .done ((x.1.cause?, x.1), x.2)) := by
  refine hp.bind ?_ fun x hT hx => ⟨hT, hx⟩
  rintro x y ⟨ports', hvalue, hpair⟩
  exact .done ⟨ports', congrArg (fun r => (r.cause?, r)) hvalue, hpair⟩

/-- **A call** on two drivers goes alike: the same answer, for the same cause if it is a failure,
and two drivers that differ in nothing else. -/
theorem mirrors_call {c : Call} (h : Pair S config config' ports d d')
    (hpace : config.poll.Pace Q T fuel config'.poll fuel') (hconfig : config.Alike config')
    (hinit : ∀ board number wrapper base, c = .init board number wrapper base →
      Block.Twin Q ⟨base, config.registers⟩ ⟨base, config'.registers⟩ ∧
        ∀ w ∈ wrapper, ∀ v, Q (.act (.write (w + Gsbi.control) v))
          (.act (.write (w + Gsbi.control) v)))
    (hport : ∀ port, c.port? = some port → S port.index ∧ TwinAt Q config config' ports port) :
    Mirrors Q T CallTimedOut (fun x y => ∃ ports', Pair.Result S config config' ports' x y)
      (c.withCause fuel d) (c.withCause fuel' d') := by
  have hturns := hpace.turns
  cases c with
  | init board number wrapper base =>
    obtain ⟨htwin, hwrapper⟩ := hinit board number wrapper base rfl
    refine mirrors_told ((mirrors_init h htwin hwrapper hpace hconfig).bind ?_ ?_)
    · rintro x y ⟨ports', hvalue, hpair⟩
      exact .done ⟨ports', congrArg Reply.port hvalue, hpair⟩
    · rintro ⟨r, d₁⟩ hT rfl
      exact ⟨hT, rfl⟩
  | putChar port byte =>
    obtain ⟨-, htwin⟩ := hport port rfl
    exact mirrors_told (mirrors_sent h Reply.done (by rintro _ rfl; rfl)
      (mirrors_write h htwin hpace [byte]))
  | write port data =>
    obtain ⟨-, htwin⟩ := hport port rfl
    exact mirrors_told (mirrors_sent h Reply.done (by rintro _ rfl; rfl)
      (mirrors_write h htwin hpace data))
  | flush port =>
    obtain ⟨-, htwin⟩ := hport port rfl
    exact mirrors_told (mirrors_sent h Reply.done (by rintro _ rfl; rfl)
      (mirrors_flush h htwin hpace))
  | borrow port =>
    have hborrow : Mirrors Q T TimedOut Eq (d.onPort port fun _ => .done (.ok ()))
        (d'.onPort port fun _ => .done (.ok ())) :=
      mirrors_onPort h fun _ _ => .done rfl
    exact mirrors_told (mirrors_sent h Reply.done (by rintro _ rfl; rfl) hborrow)
  | writeBytes port data =>
    obtain ⟨-, htwin⟩ := hport port rfl
    exact mirrors_told (mirrors_sent h Reply.count (by rintro _ rfl; rfl)
      (mirrors_writeBytes h htwin hpace data))
  | writeAll port data =>
    obtain ⟨-, htwin⟩ := hport port rfl
    exact mirrors_told (mirrors_sent h Reply.done (by rintro _ rfl; rfl)
      (mirrors_writeAll h htwin hpace data))
  | writeText port text =>
    obtain ⟨-, htwin⟩ := hport port rfl
    exact mirrors_sent h (fun r => ((Reply.done r).cause?, Reply.text (formatted r)))
      (by rintro _ rfl; rfl) (mirrors_writeAll h htwin hpace text)
  | writePieces port pieces =>
    obtain ⟨-, htwin⟩ := hport port rfl
    exact mirrors_sent h (fun r => ((Reply.done r).cause?, Reply.text (formatted r)))
      (by rintro _ rfl; rfl) (mirrors_sendPieces h htwin hpace pieces)
  | getChar port wait =>
    obtain ⟨hS, htwin⟩ := hport port rfl
    exact mirrors_told (mirrors_received Reply.byte (mirrors_getChar hS htwin hturns wait h))
  | drain port max =>
    obtain ⟨hS, htwin⟩ := hport port rfl
    exact mirrors_told (mirrors_received (fun x => Reply.drained x.1 x.2)
      (mirrors_drain hS htwin hturns max h))
  | readBytes port room =>
    obtain ⟨hS, htwin⟩ := hport port rfl
    exact mirrors_told (mirrors_received (fun x => Reply.buffer x.bytes x.result)
      (mirrors_readBytes hS htwin hturns room h))
  | readExact port room =>
    obtain ⟨hS, htwin⟩ := hport port rfl
    exact mirrors_told (mirrors_received (fun x => Reply.filled x.bytes x.result)
      (mirrors_fillFrom hS htwin hturns room room h))

end Driver

end Pairs

end PolledUart
