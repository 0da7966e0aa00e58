import PolledUart.Proofs.BenchDirections
import PolledUart.Proofs.PortIsolation

/-!
# Sending and receiving do not disturb each other

Whoever leaves out all calls of one direction finds the other as it was: the calls of that
direction are answered the same, and leave its part of the block the same.

* `Session.Unnoticed.replay` — calls that are left out, and a relation that does not notice.
* `Session.unnoticed_sending`, `Session.unnoticed_receiving` — one step of either direction.
* `directions_independent` — whole sessions.
-/

namespace PolledUart

open Program Sim

variable {σ κ : Type} {slots : Nat}

/-! ### Leaving out calls -/

/-- The call of an entry with its answer. -/
def Entry.answer? : Entry slots κ → Option (Call × Reply)
  | .call _ c reply _ => some (c, reply)
  | .control _ => none

/-- The move is a control or one of the calls that are kept. -/
def Move.keeps (kept : Call → Bool) : Move κ → Bool
  | .call _ c => kept c
  | .control _ => true

/-- Two sessions in the relation stay in it when the first one makes a move and the second one
makes it too, unless the move is a call that is not kept: then the second one does nothing. -/
structure Session.Unnoticed (bus : Bus σ) (operate : κ → σ → Option σ) (kept : Call → Bool)
    (M : Move κ → Prop) (R : Session σ slots → Session σ slots → Prop) : Prop where
  same : ∀ {fuel : Nat} {c : Call} {x y x' : Session σ slots} {reply : Reply} {t : List Event},
    M (.call fuel c) → kept c = true → R x y → perform bus fuel c x = ⟨.ok reply x', t⟩ →
      ∃ t' y', perform bus fuel c y = ⟨.ok reply y', t'⟩ ∧ R x' y'
  left : ∀ {fuel : Nat} {c : Call} {x y x' : Session σ slots} {reply : Reply} {t : List Event},
    M (.call fuel c) → kept c = false → R x y → perform bus fuel c x = ⟨.ok reply x', t⟩ → R x' y
  control : ∀ {k : κ} {x y : Session σ slots} {s : σ}, M (.control k) → R x y →
    operate k x.bus = some s → ∃ s', operate k y.bus = some s' ∧ R ⟨x.driver, s⟩ ⟨y.driver, s'⟩

/-- **Leaving out calls that go unnoticed**: the other ones are answered the same. -/
theorem Session.Unnoticed.replay {bus : Bus σ} {operate : κ → σ → Option σ} {kept : Call → Bool}
    {M : Move κ → Prop} {R : Session σ slots → Session σ slots → Prop}
    (hR : Unnoticed bus operate kept M R) {moves : List (Move κ)} {x y x' : Session σ slots}
    {entries : List (Entry slots κ)} (hmoves : ∀ m ∈ moves, M m) (hxy : R x y)
    (h : Session.replay bus operate moves x = some (entries, x')) :
    ∃ fewer y', Session.replay bus operate (moves.filter (Move.keeps kept)) y = some (fewer, y') ∧
      fewer.filterMap Entry.answer? =
        (entries.filterMap Entry.answer?).filter (fun a => kept a.1) ∧ R x' y' := by
  induction moves generalizing x y entries with
  | nil =>
    obtain ⟨rfl, rfl⟩ := Prod.mk.inj (Option.some.inj h)
    exact ⟨[], y, rfl, rfl, hxy⟩
  | cons m rest ih =>
    obtain ⟨hm, hrest⟩ := List.forall_mem_cons.1 hmoves
    cases m with
    | call fuel c =>
      rw [Session.replay] at h
      split at h
      · rename_i reply x₁ t hperform
        obtain ⟨⟨later, x₂⟩, hlater, hr⟩ := Option.map_eq_some_iff.1 h
        obtain ⟨rfl, rfl⟩ := Prod.mk.inj hr
        have hanswers : (Entry.call x.driver c reply t :: later).filterMap Entry.answer? =
            (c, reply) :: later.filterMap Entry.answer? := rfl
        cases hc : kept c with
        | true =>
          obtain ⟨t', y₁, hperform', hxy'⟩ := hR.same hm hc hxy hperform
          obtain ⟨fewer, y', hfewer, hsame, hend⟩ := ih hrest hxy' hlater
          refine ⟨.call y.driver c reply t' :: fewer, y', ?_, ?_, hend⟩
          · rw [List.filter_cons_of_pos (by exact hc), Session.replay, hperform']
            exact Option.map_eq_some_iff.2 ⟨_, hfewer, rfl⟩
          · rw [hanswers, List.filter_cons_of_pos (by exact hc), ← hsame]
            rfl
        | false =>
          have hxy' := hR.left hm hc hxy hperform
          obtain ⟨fewer, y', hfewer, hsame, hend⟩ := ih hrest hxy' hlater
          refine ⟨fewer, y', ?_, ?_, hend⟩
          · rw [List.filter_cons_of_neg (by simpa [Move.keeps] using hc)]
            exact hfewer
          · rw [hanswers, List.filter_cons_of_neg (by simpa using hc), hsame]
      · cases h
    | control k =>
      obtain ⟨s, hoperate, h₁⟩ := Option.bind_eq_some_iff.1 h
      obtain ⟨⟨later, x₂⟩, hlater, hr⟩ := Option.map_eq_some_iff.1 h₁
      obtain ⟨rfl, rfl⟩ := Prod.mk.inj hr
      obtain ⟨s', hoperate', hxy'⟩ := hR.control hm hxy hoperate
      obtain ⟨fewer, y', hfewer, hsame, hend⟩ := ih hrest hxy' hlater
      refine ⟨.control k :: fewer, y', ?_, hsame, hend⟩
      rw [List.filter_cons_of_pos rfl, Session.replay, hoperate']
      exact Option.map_eq_some_iff.2 ⟨_, hfewer, rfl⟩

/-! ### Sending does not look at the caches -/

namespace Driver

variable {d d' d₁ : Driver slots} {fuel : Nat} {port : PortId} {c : Call}

theorem writeText_of_sameSetup (h : d.SameSetup d') (text : List UInt8) :
    d'.writeText fuel port text = d.writeText fuel port text := by
  obtain ⟨config, ports, caches⟩ := d
  obtain ⟨config', ports', caches'⟩ := d'
  obtain ⟨rfl, rfl⟩ := h
  rfl

theorem writePieces_of_sameSetup (h : d.SameSetup d') (pieces : List (List UInt8)) :
    d'.writePieces fuel port pieces = d.writePieces fuel port pieces := by
  induction pieces with
  | nil => rfl
  | cons piece rest ih =>
    unfold writePieces
    rw [writeText_of_sameSetup h, ih]

/-- **A call that sends** looks at nothing of the driver but its configuration and its ports, and
leaves the driver as it is. -/
theorem program_of_sending (fuel : Nat) (h : d.SameSetup d') (hc : c.port? = some port)
    (hr : c.reads = false) :
    ∃ answer : Program Reply, c.program fuel d = answer.bind (fun r => .done (r, d)) ∧
      c.program fuel d' = answer.bind fun r => .done (r, d') := by
  have hanswer : ∀ {α : Type} (p : Program α) (f : α → Reply) (d : Driver slots),
      (p.bind fun a => .done (f a, d)) =
        (p.bind fun a => .done (f a)).bind fun r => .done (r, d) := by
    intro α p f d
    rw [bind_assoc]
    rfl
  cases c with
  | writePieces p pieces =>
    refine ⟨(d.writePieces fuel p pieces).bind fun a => .done (.text a), hanswer _ _ _, ?_⟩
    rw [← writePieces_of_sameSetup h]
    exact hanswer _ _ _
  | init _ _ _ _ => cases hc
  | getChar _ _ | drain _ _ | readBytes _ _ | readExact _ _ => cases hr
  | _ =>
    obtain ⟨config, ports, caches⟩ := d
    obtain ⟨config', ports', caches'⟩ := d'
    obtain ⟨rfl, rfl⟩ := h
    exact ⟨_, hanswer _ _ _, hanswer _ _ _⟩

theorem completes_of_sameSetup {bus : Bus σ} {s s' : σ} {t : List Event} {reply : Reply}
    (h : d.SameSetup d') (hc : c.port? = some port) (hr : c.reads = false)
    (hrun : bus.Completes (c.program fuel d) s t (reply, d₁) s') :
    d₁ = d ∧ bus.Completes (c.program fuel d') s t (reply, d') s' := by
  obtain ⟨answer, hp, hp'⟩ := program_of_sending fuel h hc hr
  rw [hp] at hrun
  obtain ⟨r, hanswer, heq⟩ := Bus.completes_bind_done_iff.1 hrun
  obtain ⟨rfl, rfl⟩ := Prod.mk.inj heq
  rw [hp']
  exact ⟨rfl, Bus.completes_bind_done_iff.2 ⟨_, hanswer, rfl⟩⟩

end Driver

/-! ### A port on the bench -/

namespace Session

variable {port : PortId} {b : Block} {x x' y : Session Bench slots} {fuel : Nat} {c : Call}
  {reply : Reply} {t : List Event}

/-- The port of the session is the bench block, which does not pretend to be busy. -/
structure Attached (port : PortId) (b : Block) (x : Session Bench slots) : Prop where
  resolve_eq : x.driver.ports.resolve port = some b.base
  registers_eq : x.driver.config.registers = b.map
  ready : x.bus.sender.Ready b

namespace Attached

theorem eq_block (h : x.Attached port b) {base : Address}
    (hbase : x.driver.ports.resolve port = some base) : x.driver.block base = b := by
  obtain rfl : base = b.base := Option.some.inj (hbase.symm.trans h.resolve_eq)
  rw [Driver.block, h.registers_eq]

theorem receiver_ready (h : x.Attached port b) : x.bus.receiver.Ready b :=
  ⟨h.ready.1, h.ready.2.1⟩

theorem asks_sending (h : x.Attached port b) (hc : c.port? = some port) (hr : c.reads = false) :
    (c.program fuel x.driver).Asks (Request.Sending b) fun r => r.2 = x.driver := by
  refine (Driver.asks_of_sending hc hr fun base hbase => ?_).mono (fun _ hP => hP) fun _ hQ => hQ.2
  exact h.eq_block hbase ▸ Transmit.allowed_sending _

theorem asks_receiving (h : x.Attached port b) (hc : c.port? = some port) (hr : c.reads = true) :
    (c.program fuel x.driver).Asks (Request.Receiving b) fun _ => True :=
  Driver.asks_of_reading hc hr fun _ hbase => h.eq_block hbase ▸ Receive.allowed_receiving _

theorem heeds_sending (h : x.Attached port b) (hm : Bench.TellsApart b.map)
    (hc : c.port? = some port) (hr : c.reads = false) :
    (c.program fuel x.driver).Heeds (b.statusBits Status.sending) := by
  refine Driver.heeds_of_sending (fun base hbase => ?_) hc hr
  rw [h.eq_block hbase]
  exact Transmit.heeded_statusBits hm

theorem heeds_receiving (h : x.Attached port b) (hm : Bench.TellsApart b.map)
    (hc : c.port? = some port) (hr : c.reads = true) :
    (c.program fuel x.driver).Heeds (b.statusBits Status.receiving) := by
  refine Driver.heeds_of_reading (fun base hbase => ?_) hc hr
  rw [h.eq_block hbase]
  exact Receive.heeded_statusBits hm

/-- The session stays attached, whatever is done to it. -/
theorem call (h : x.Attached port b) (hm : Bench.TellsApart b.map) (hc : c.port? = some port)
    (hcall : perform Bench.bus fuel c x = ⟨.ok reply x', t⟩) : x'.Attached port b := by
  have hrun := perform_eq_ok_iff.1 hcall
  have hleaves := Driver.leaves_of_completes hrun
  refine ⟨hleaves.resolve_eq h.resolve_eq, hleaves.config_eq ▸ h.registers_eq, ?_⟩
  cases hr : c.reads with
  | true =>
    have hsame := (Bench.spares_sender hm).completes (h.asks_receiving hc hr) h.ready hrun
    exact hsame ▸ h.ready
  | false =>
    exact ((Bench.shows_sender hm).completes (h.heeds_sending hm hc hr) (h.asks_sending hc hr)
      h.ready rfl hrun).1

theorem control (h : x.Attached port b) {k : Bench.Control} {s : Bench}
    (hidle : ∀ n, k = .busyStatusPolls n → n = 0) (hk : Bench.control k x.bus = some s) :
    Attached port b ⟨x.driver, s⟩ :=
  ⟨h.resolve_eq, h.registers_eq, Bench.control_ready h.ready hidle hk⟩

end Attached

/-! ### Leaving out the sending -/

/-- The two sessions are the same for whoever reads the port. -/
structure SameReceiver (port : PortId) (b : Block) (x y : Session Bench slots) : Prop where
  left : x.Attached port b
  right : y.Attached port b
  driver_eq : y.driver = x.driver
  receiver_eq : y.bus.receiver = x.bus.receiver
  dataWrites_le : y.bus.dataWrites ≤ x.bus.dataWrites

/-- The two sessions are the same for whoever sends on the port. -/
structure SameSender (port : PortId) (b : Block) (x y : Session Bench slots) : Prop where
  left : x.Attached port b
  right : y.Attached port b
  setup : x.driver.SameSetup y.driver
  sender_eq : y.bus.sender = x.bus.sender

/-- The moves of one port, which leave the status of the block alone. -/
def OnPort (port : PortId) : Move Bench.Control → Prop
  | .call _ c => c.port? = some port
  | .control k => ∀ n, k = .busyStatusPolls n → n = 0

section Steps

variable (hm : Bench.TellsApart b.map)

include hm

/-- **Whoever reads** does not notice that nothing is sent. -/
theorem unnoticed_sending : Unnoticed Bench.bus Bench.control Call.reads (OnPort port)
    (@SameReceiver slots port b) where
  same := by
    intro fuel c x y x' reply t hc hr h hcall
    have hrun := perform_eq_ok_iff.1 hcall
    obtain ⟨-, t', s', hrun', hview⟩ := (Bench.shows_receiver hm).completes
      (h.left.heeds_receiving hm hc hr) (h.left.asks_receiving hc hr) h.left.receiver_ready
      h.receiver_eq hrun
    rw [← h.driver_eq] at hrun'
    have hcall' : perform Bench.bus fuel c y = ⟨.ok reply ⟨x'.driver, s'⟩, t'⟩ :=
      perform_eq_ok_iff.2 hrun'
    -- Reading leaves the sender, and with it the number of data writes, as it is.
    have hwrites : x'.bus.sender = x.bus.sender :=
      (Bench.spares_sender hm).completes (h.left.asks_receiving hc hr) h.left.ready hrun
    have hwrites' : s'.sender = y.bus.sender :=
      (Bench.spares_sender hm).completes (h.right.asks_receiving hc hr) h.right.ready hrun'
    refine ⟨t', ⟨x'.driver, s'⟩, hcall', h.left.call hm hc hcall, h.right.call hm hc hcall', rfl,
      hview, ?_⟩
    calc s'.dataWrites = y.bus.dataWrites := congrArg Bench.Sender.dataWrites hwrites'
      _ ≤ x.bus.dataWrites := h.dataWrites_le
      _ = x'.bus.dataWrites := (congrArg Bench.Sender.dataWrites hwrites).symm
  left := by
    intro fuel c x y x' reply t hc hr h hcall
    have hrun := perform_eq_ok_iff.1 hcall
    have hdriver : x'.driver = x.driver := (hrun.asks (h.left.asks_sending hc hr)).1
    have hview : x'.bus.receiver = x.bus.receiver :=
      (Bench.spares_receiver hm).completes (h.left.asks_sending hc hr) h.left.receiver_ready hrun
    exact ⟨h.left.call hm hc hcall, h.right, h.driver_eq.trans hdriver.symm,
      h.receiver_eq.trans hview.symm,
      Nat.le_trans h.dataWrites_le (Bench.dataWrites_le_of_path hrun.path)⟩
  control := by
    intro k x y s hidle h hk
    obtain ⟨s', hk', hview, hle⟩ := Bench.control_receiver h.receiver_eq h.dataWrites_le hk
    exact ⟨s', hk', h.left.control hidle hk, h.right.control hidle hk', h.driver_eq, hview, hle⟩

/-- **Whoever sends** does not notice that nothing is read. -/
theorem unnoticed_receiving : Unnoticed Bench.bus Bench.control (fun c => !c.reads) (OnPort port)
    (@SameSender slots port b) where
  same := by
    intro fuel c x y x' reply t hc hr h hcall
    simp only [Bool.not_eq_eq_eq_not, Bool.not_true] at hr
    have hrun := perform_eq_ok_iff.1 hcall
    obtain ⟨-, t', s', hrun', hview⟩ := (Bench.shows_sender hm).completes
      (h.left.heeds_sending hm hc hr) (h.left.asks_sending hc hr) h.left.ready h.sender_eq hrun
    obtain ⟨hdriver, hrun''⟩ := Driver.completes_of_sameSetup h.setup hc hr hrun'
    have hcall' : perform Bench.bus fuel c y = ⟨.ok reply ⟨y.driver, s'⟩, t'⟩ :=
      perform_eq_ok_iff.2 hrun''
    exact ⟨t', ⟨y.driver, s'⟩, hcall', h.left.call hm hc hcall, h.right.call hm hc hcall',
      hdriver ▸ h.setup, hview⟩
  left := by
    intro fuel c x y x' reply t hc hr h hcall
    simp only [Bool.not_eq_eq_eq_not, Bool.not_false] at hr
    have hrun := perform_eq_ok_iff.1 hcall
    have hleaves := Driver.leaves_of_completes hrun
    have hview : x'.bus.sender = x.bus.sender :=
      (Bench.spares_sender hm).completes (h.left.asks_receiving hc hr) h.left.ready hrun
    exact ⟨h.left.call hm hc hcall, h.right,
      ⟨h.setup.1.trans hleaves.config_eq.symm, h.setup.2.trans (hleaves.ports_eq hc).symm⟩,
      h.sender_eq.trans hview.symm⟩
  control := by
    intro k x y s hidle h hk
    obtain ⟨s', hk', hview⟩ := Bench.control_sender h.sender_eq hk
    exact ⟨s', hk', h.left.control hidle hk, h.right.control hidle hk', h.setup, hview⟩

end Steps

end Session

section Independence

variable {port : PortId} {x x' : Session Bench slots} {moves : List (Move Bench.Control)}
  {entries : List (Entry slots Bench.Control)}

/-- **Sending and receiving do not disturb each other.** On a port that is the bench block, whose
status does not pretend to be busy, the calls that read are answered the same when nothing is
sent, and the driver with its cache, the characters that have not been read and the overrun are
the same in the end. The calls that send are answered the same when nothing is read, and what has
reached the wire and the announced counts are the same. Both also hold where a transfer times
out. -/
theorem directions_independent (hmap : x.bus.map = .blsp ∨ x.bus.map = .gsbi)
    (hconfig : x.driver.config.registers = x.bus.map)
    (hport : x.driver.ports.resolve port = some x.bus.base) (hidle : x.bus.srBusyPolls = 0)
    (hcalls : ∀ m ∈ moves, m.Calls fun c => c.port? = some port)
    (hpolls : ∀ n, .control (.busyStatusPolls n) ∈ moves → n = 0)
    (h : Session.replay Bench.bus Bench.control moves x = some (entries, x')) :
    (∃ received y,
      Session.replay Bench.bus Bench.control (moves.filter (Move.keeps Call.reads)) x =
        some (received, y) ∧
      received.filterMap Entry.answer? =
        (entries.filterMap Entry.answer?).filter (fun a => a.1.reads) ∧
      y.driver = x'.driver ∧ y.bus.rx = x'.bus.rx ∧ y.bus.overrun = x'.bus.overrun) ∧
    ∃ sent z,
      Session.replay Bench.bus Bench.control (moves.filter (Move.keeps fun c => !c.reads)) x =
        some (sent, z) ∧
      sent.filterMap Entry.answer? =
        (entries.filterMap Entry.answer?).filter (fun a => !a.1.reads) ∧
      z.bus.txBytes = x'.bus.txBytes ∧ z.bus.txCounts = x'.bus.txCounts := by
  have hm : Bench.TellsApart x.bus.map := by
    rcases hmap with h | h <;> rw [h]
    · exact Bench.tellsApart_blsp
    · exact Bench.tellsApart_gsbi
  let b : Block := ⟨x.bus.base, x.bus.map⟩
  have hx : x.Attached port b := ⟨hport, hconfig, rfl, rfl, hidle⟩
  have hmoves : ∀ m ∈ moves, Session.OnPort port m := by
    intro m hmem
    cases m with
    | call fuel c => exact hcalls _ hmem
    | control k =>
      rintro n rfl
      exact hpolls n hmem
  constructor
  · obtain ⟨received, y, hreplay, hanswers, hend⟩ :=
      (Session.unnoticed_sending (b := b) hm).replay hmoves
        ⟨hx, hx, rfl, rfl, Nat.le_refl _⟩ h
    exact ⟨received, y, hreplay, hanswers, hend.driver_eq,
      congrArg Bench.Receiver.rx hend.receiver_eq,
      congrArg Bench.Receiver.overrun hend.receiver_eq⟩
  · obtain ⟨sent, z, hreplay, hanswers, hend⟩ :=
      (Session.unnoticed_receiving (b := b) hm).replay hmoves ⟨hx, hx, .refl _, rfl⟩ h
    have htransfers : z.bus.transfers = x'.bus.transfers :=
      congrArg (fun s => s.transfersBack.reverse) hend.sender_eq
    exact ⟨sent, z, hreplay, hanswers, by rw [Bench.txBytes, htransfers]; rfl,
      by rw [Bench.txCounts, htransfers]; rfl⟩

/-- A block of which the data registers share an offset. The transmitter stalls in the middle of a
text while five characters wait to be read and one has been lost; they are read between the text,
which times out, and another one, which does not. -/
theorem directions_independent_stalled :
    ∃ (moves : List (Move Bench.Control)) (entries : List (Entry 1 Bench.Control))
      (x x' : Session Bench 1),
      x.bus.map = .gsbi ∧ x.driver.config.registers = x.bus.map ∧
      x.driver.ports.resolve ⟨0⟩ = some x.bus.base ∧ x.bus.srBusyPolls = 0 ∧
      (∀ m ∈ moves, m.Calls fun c => c.port? = some ⟨0⟩) ∧
      (∀ n, .control (.busyStatusPolls n) ∈ moves → n = 0) ∧
      Session.replay Bench.bus Bench.control moves x = some (entries, x') ∧
      (entries.filterMap Entry.answer?).map (fun a => (a.2.bytes, a.2.cause?)) =
        [([0x61], none), ([], some .timeout), ([0x62, 0x63, 0x64, 0x65], some .rxNotReady),
          ([], none)] ∧
      (∃ received y,
        Session.replay Bench.bus Bench.control (moves.filter (Move.keeps Call.reads)) x =
          some (received, y) ∧
        received.filterMap Entry.answer? =
          (entries.filterMap Entry.answer?).filter (fun a => a.1.reads) ∧
        y.driver = x'.driver ∧ y.bus.rx = x'.bus.rx ∧ y.bus.overrun = x'.bus.overrun) ∧
      ∃ sent z,
        Session.replay Bench.bus Bench.control (moves.filter (Move.keeps fun c => !c.reads)) x =
          some (sent, z) ∧
        sent.filterMap Entry.answer? =
          (entries.filterMap Entry.answer?).filter (fun a => !a.1.reads) ∧
        z.bus.txBytes = x'.bus.txBytes ∧ z.bus.txCounts = x'.bus.txCounts := by
  let moves : List (Move Bench.Control) :=
    [.control (.receive [0x61, 0x62, 0x63, 0x64, 0x65]), .control (.overrun true),
      .control (.stallAfter 1), .call 0 (.getChar ⟨0⟩ false),
      .call 0 (.write ⟨0⟩ [0x31, 0x32, 0x33, 0x34, 0x35, 0x36, 0x37, 0x38]),
      .call 0 (.drain ⟨0⟩ 5), .control (.busyInterruptPolls 1),
      .call 0 (.write ⟨0⟩ [0x39, 0x0a])]
  let driver : Driver 1 :=
    { config := { Config.standard with registers := .gsbi, poll := .budget 2 }
      ports := ⟨[0x1000], Nat.le_refl 1⟩
      caches := .replicate 1 .empty }
  let x : Session Bench 1 := ⟨driver, .new 0x1000 .gsbi⟩
  have hcalls : ∀ m ∈ moves, m.Calls fun c => c.port? = some ⟨0⟩ := by
    simp [moves, Move.Calls, Call.port?]
  have hpolls : ∀ n, .control (.busyStatusPolls n) ∈ moves → n = 0 := by simp [moves]
  have hrun : (Session.replay Bench.bus Bench.control moves x).map (fun r =>
      (r.1.filterMap Entry.answer?).map fun a => (a.2.bytes, a.2.cause?)) =
      some [([0x61], none), ([], some .timeout), ([0x62, 0x63, 0x64, 0x65], some .rxNotReady),
        ([], none)] := by
    decide +kernel
  obtain ⟨⟨entries, x'⟩, hreplay, hanswers⟩ := Option.map_eq_some_iff.1 hrun
  exact ⟨moves, entries, x, x', rfl, rfl, rfl, rfl, hcalls, hpolls, hreplay, hanswers,
    directions_independent (.inr rfl) rfl rfl rfl hcalls hpolls hreplay⟩

end Independence

end PolledUart
