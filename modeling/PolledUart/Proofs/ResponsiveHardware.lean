import PolledUart.Proofs.Initialization
import PolledUart.Proofs.StallRecovery

/-!
# Ports on responsive hardware

Hardware is responsive for a block if it takes every write, and the status of the block always shows
an empty transmitter that takes words (`Bus.Responsive`). No wait is ever needed there, so an
initialization can only fail by its argument, which is the banner. That of a port whose banner is an
empty text does: the transfer refuses the text, and by then the block has been programmed.

* `Bus.Responsive.path` — the hardware takes what a setup asks for.
* `Driver.announces_of_responsive` — the banner is sent, unless it is empty.
* `init_on_responsive` — every port comes up, but for those with an empty banner.
-/

namespace PolledUart

open Newline

variable {σ : Type} {bus : Bus σ} {b : Block} {S : σ → Prop} {s : σ}

/-- In the states of `S` the status of a block shows an empty transmitter that takes words, and every
write is taken; whatever is read, written or waited for leads to such a state again. -/
structure Bus.Responsive (bus : Bus σ) (b : Block) (S : σ → Prop) : Prop where
  status : ∀ s, S s → ∃ v s', bus.read (b.location .sr) s = .ok v s' ∧ S s' ∧
    v &&& Status.txReady ≠ 0 ∧ v &&& Status.txEmpty ≠ 0
  write : ∀ a v s, S s → ∃ s', bus.write a v s = .ok () s' ∧ S s'
  barrier : ∀ s, S s → S (bus.barrier s)

namespace Bus.Responsive

theorem serving (h : bus.Responsive b S) : Transmit.Serving bus b S where
  status := h.status
  announce := fun _ _ => h.write _
  data := h.write _

/-- An action other than a delay is taken. -/
theorem act (h : bus.Responsive b S) {c : Action} (hc : ∀ us, c ≠ .delay us) (hs : S s) :
    ∃ s', bus.act c s = .ok () s' ∧ S s' := by
  cases c with
  | write a v => exact h.write a v s hs
  | delay us => exact absurd rfl (hc us)
  | barrier => exact ⟨_, rfl, h.barrier s hs⟩
  | enter | leave | clock _ | pads _ => exact ⟨s, rfl, hs⟩

/-- Actions other than delays are taken one after the other. -/
theorem path (h : bus.Responsive b S) {cs : List Action} (hcs : ∀ c ∈ cs, ∀ us, c ≠ .delay us)
    (hs : S s) : ∃ s', Bus.Path bus.Step s (cs.map .act) s' ∧ S s' := by
  induction cs generalizing s with
  | nil => exact ⟨s, .nil, hs⟩
  | cons c rest ih =>
    obtain ⟨hc, hrest⟩ := List.forall_mem_cons.1 hcs
    obtain ⟨s₁, hact, hs₁⟩ := h.act hc hs
    obtain ⟨s', hpath, hs'⟩ := ih hrest hs₁
    exact ⟨s', .cons hact hpath, hs'⟩

end Bus.Responsive

/-- The events of a transfer that was sent write the count of a text and the words that carry its
expansion. -/
def Transmit.Delivers (b : Block) (text : List UInt8) (t : List Event) : Prop :=
  ∃ (count : UInt32) (ws : List FifoWord),
    count.toNat = physicalLength text ∧ ws.length = (physicalLength text + 3) / 4 ∧
    ws.flatMap FifoWord.lanes =
      expand text ++ List.replicate (4 * ws.length - physicalLength text) 0 ∧
    Trace.writes t = header b count ++ ws.map b.dataWrite

theorem Transmit.delivers_of_completes {policy : PollPolicy} {fuel : Nat} {text : List UInt8}
    {t : List Event} {s' : σ} (htext : Sendable text)
    (h : bus.Completes (transmit b policy fuel text) s t (.ok ()) s') : Delivers b text t := by
  obtain ⟨count, hcount, hlength⟩ := count?_of_lt htext.2
  rcases (transmits_of_completes htext.1 hcount h).writes_eq with
    ⟨-, hwrites⟩ | ⟨hfailed, -⟩ | ⟨hfailed, -⟩
  · exact ⟨count, words text, hlength, length_words text, lanes_words text, hwrites⟩
  · cases hfailed
  · cases hfailed

namespace Driver

variable {slots : Nat} {config : Config} {fuel : Nat}

/-- Nothing in a setup waits. -/
theorem ne_delay_of_mem_setup {board : Board} {number : UInt8} {wrapper : Option Address}
    {c : Action} (hc : c ∈ setup config board number wrapper b) (us : UInt32) : c ≠ .delay us := by
  rintro rfl
  cases board <;> cases wrapper <;> simp [setup, boardHook, wrapperSetup, blockSetup] at hc

/-- How the banner goes on responsive hardware: an empty one is refused, any other one is sent. -/
inductive Announces (b : Block) : Option (List UInt8) → List Event → Except IoError Unit → Prop where
  /-- There is no banner. -/
  | none : Announces b .none [] (.ok ())
  /-- The banner is empty. -/
  | refused : Announces b (some []) [] (.error .invalidArgument)
  /-- The banner is sent. -/
  | sent {text : List UInt8} {t : List Event} : text ≠ [] → Transmit.Delivers b text t →
      Announces b (some text) t (.ok ())

theorem announces_of_responsive (fuel : Nat) (h : bus.Responsive b S) (hreach : b.Addressable)
    (hfit : ∀ text ∈ config.banner, physicalLength text < 0x100000000) (hs : S s) :
    ∃ t r s', BannerRuns bus config fuel b s t r s' ∧ S s' ∧ Announces b config.banner t r := by
  unfold BannerRuns
  cases hbanner : config.banner with
  | none => exact ⟨[], _, s, ⟨rfl, rfl, rfl⟩, hs, .none⟩
  | some text =>
    dsimp only
    by_cases hne : text = []
    · subst hne
      rw [Transmit.transmit_of_refused (.inl rfl)]
      exact ⟨[], _, s, rfl, hs, .refused⟩
    · have htext : Sendable text := ⟨hne, hfit text hbanner⟩
      obtain ⟨t, s', hrun, hs'⟩ := h.serving.completes_transmit config.poll fuel
        (fun q _ => hreach.address?_eq q) hs htext
      exact ⟨t, _, s', Bus.completes_iff.1 hrun, hs',
        .sent hne (Transmit.delivers_of_completes htext hrun)⟩

end Driver

/-- **A bench block** that nothing holds up is responsive hardware. -/
theorem Sim.Bench.responsive (hm : TellsApart b.map) :
    Sim.Bench.bus.Responsive b fun d => d.Stands b ∧ d.stallAt = none where
  status := (serving hm).status
  write := by
    rintro a v d ⟨h, hstall⟩
    refine ⟨_, rfl, ⟨h.serves.write a v, h.prompt.write a v⟩, ?_⟩
    unfold Bench.write writeAt takeWord obey store
    dsimp only
    repeat' split
    all_goals first | rfl | exact hstall
  barrier := fun _ h => h

section Sessions

variable {slots : Nat} {x : Session σ slots}

/-- **Ports on responsive hardware.** Where the base and a port are to be had, and the banner is not
too long to be announced, an initialization on responsive hardware ends, and leaves the hardware
responsive. Unless the banner is empty, the next port has come up, and after the setup the banner has
been sent, if there is one. If the banner is empty, the initialization has programmed the block all
the same, and then failed. -/
theorem init_on_responsive (fuel : Nat) (board : Board) (number : UInt8)
    (wrapper : Option Address) {base : Address} (hbase : base ≠ 0) (hroom : x.driver.HasRoom)
    (hreach : (x.driver.block base).Addressable)
    (hfit : ∀ text ∈ x.driver.config.banner, physicalLength text < 0x100000000)
    (hbus : bus.Responsive (x.driver.block base) S) (hs : S x.bus) :
    ∃ reply x' t,
      Session.perform bus fuel (.init board number wrapper base) x = ⟨.ok reply x',
        (Driver.setup x.driver.config board number wrapper (x.driver.block base)).map .act ++ t⟩ ∧
      S x'.bus ∧
      (x.driver.config.banner ≠ some [] →
        reply = .port (.ok x.driver.nextPort) ∧ x.driver.Extends base x'.driver) ∧
      (x.driver.config.banner.getD [] = [] → t = []) ∧
      (∀ text ∈ x.driver.config.banner, text ≠ [] →
        Transmit.Delivers (x.driver.block base) text t) ∧
      (x.driver.config.banner = some [] →
        reply = .port (.error (.transmit .invalidArgument)) ∧ x'.driver = x.driver) := by
  have hsetup : ∀ c ∈ Driver.setup x.driver.config board number wrapper (x.driver.block base),
      ∀ us, c ≠ .delay us := fun c hc => Driver.ne_delay_of_mem_setup hc
  obtain ⟨s₁, hpath, hs₁⟩ := hbus.path hsetup hs
  obtain ⟨t, r, s', hbanner, hs', hends⟩ :=
    Driver.announces_of_responsive fuel hbus hreach hfit hs₁
  have hperform : ∀ {result d'}, x.driver.Settles base r result d' →
      Session.perform bus fuel (.init board number wrapper base) x = ⟨.ok (.port result) ⟨d', s'⟩,
        (Driver.setup x.driver.config board number wrapper (x.driver.block base)).map .act ++ t⟩ :=
    fun hsettles => perform_init_iff.2 ⟨_, rfl, (Driver.completes_init_iff hbase hroom hreach).2
      ⟨s₁, t, r, hpath, hbanner, rfl, hsettles⟩⟩
  generalize x.driver.config.banner = banner at hends ⊢
  cases hends with
  | none =>
    obtain ⟨d', hd'⟩ := hroom.exists_extends base
    exact ⟨_, _, [], hperform (.opened hd'), hs', fun _ => ⟨rfl, hd'⟩, fun _ => rfl, nofun, nofun⟩
  | refused =>
    exact ⟨_, _, [], hperform .failed, hs', fun h => absurd rfl h, fun _ => rfl,
      fun text htext hne => absurd (Option.some.inj htext).symm hne, fun _ => ⟨rfl, rfl⟩⟩
  | @sent text _ hne hdelivers =>
    obtain ⟨d', hd'⟩ := hroom.exists_extends base
    refine ⟨_, _, t, hperform (.opened hd'), hs', fun _ => ⟨rfl, hd'⟩, fun h => absurd h hne, ?_,
      fun h => absurd (Option.some.inj h) hne⟩
    intro text' htext' _
    obtain rfl := Option.some.inj htext'
    exact hdelivers

/-- A second port in the layout with shared offsets, whose banner has a line feed. -/
theorem init_on_responsive_bench :
    ∃ (x x' : Session Sim.Bench 2) (t : List Event),
      x.driver.ports.bases = [0x1000] ∧ x.driver.config.registers = .gsbi ∧
      x.driver.config.banner = some [0x68, 0x69, 0x0a, 0x21] ∧
      Session.perform Sim.Bench.bus 0 (.init .ready 7 none 0x2000) x =
        ⟨.ok (.port (.ok ⟨1⟩)) x', t⟩ ∧
      x'.driver.ports.bases = [0x1000, 0x2000] ∧
      ∃ count w v, Trace.writes t = [(0x2008, 0xff), (0x2000, 0x80), (0x2004, 0x34), (0x2010, 0x10),
        (0x2010, 0x20), (0x203c, 0), (0x2040, count), (0x2010, 0x300), (0x2070, w), (0x2070, v)] ∧
        count.toNat = 5 ∧
        FifoWord.lanes ⟨w⟩ ++ FifoWord.lanes ⟨v⟩ = [0x68, 0x69, 0x0d, 0x0a, 0x21, 0, 0, 0] := by
  let driver : Driver 2 :=
    { config := { Config.standard with
        registers := .gsbi, banner := some [0x68, 0x69, 0x0a, 0x21], poll := .forever }
      ports := ⟨[0x1000], by decide⟩
      caches := .replicate 2 .empty }
  let x : Session Sim.Bench 2 := ⟨driver, .new 0x2000 .gsbi⟩
  have hreach : (x.driver.block 0x2000).Addressable := by
    intro r
    cases r <;> rfl
  have hfit : ∀ text ∈ x.driver.config.banner, physicalLength text < 0x100000000 := by
    intro text htext
    obtain rfl := Option.some.inj htext
    decide
  have hidle : x.bus.Stands (x.driver.block 0x2000) ∧ x.bus.stallAt = none :=
    ⟨⟨⟨rfl, rfl⟩, ⟨rfl, rfl, rfl⟩⟩, rfl⟩
  obtain ⟨reply, x', t, hrun, -, hup, -, hsent, -⟩ := init_on_responsive 0 .ready 7 none
    (by decide) (by decide) hreach hfit
    (Sim.Bench.responsive (Sim.Bench.tellsApart_of_known (.inr rfl))) hidle
  obtain ⟨rfl, hextends⟩ := hup nofun
  obtain ⟨count, ws, hcount, hlength, hlanes, hwrites⟩ := hsent _ rfl (by decide)
  obtain ⟨w, v, rfl⟩ : ∃ w v, ws = [w, v] := List.length_eq_two.1 hlength
  refine ⟨x, x', _, rfl, rfl, rfl, hrun, hextends.bases, count, w.raw, v.raw, ?_, hcount, hlanes⟩
  rw [Trace.writes_append, hwrites]
  rfl

/-- A port with an empty banner does not come up, though nothing is in its way: its block is
programmed, and then the banner is refused. -/
theorem empty_banner_refused :
    ∃ (x x' : Session Sim.Bench 4) (t : List Event),
      x.driver = .new { Config.standard with banner := some [] } ∧
      x.bus = .new 0x1000 .blsp ∧
      Sim.Bench.bus.Responsive (x.driver.block 0x1000)
        (fun d => d.Stands (x.driver.block 0x1000) ∧ d.stallAt = none) ∧
      x.bus.Stands (x.driver.block 0x1000) ∧ x.bus.stallAt = none ∧
      Session.perform Sim.Bench.bus 0 (.init .hooks 0 none 0x1000) x =
        ⟨.ok (.port (.error (.transmit .invalidArgument))) x', t⟩ ∧
      Trace.writes t = [(0x10a0, 0xff), (0x1000, 0x80), (0x1004, 0x34), (0x10a8, 0x10),
        (0x10a8, 0x20), (0x103c, 0)] ∧
      x'.driver.ports.bases = [] := by
  let x : Session Sim.Bench 4 :=
    ⟨.new { Config.standard with banner := some [] }, .new 0x1000 .blsp⟩
  have hresponsive := Sim.Bench.responsive (b := x.driver.block 0x1000)
    (Sim.Bench.tellsApart_of_known (.inl rfl))
  have hrun : ((Session.perform Sim.Bench.bus 0 (.init .hooks 0 none 0x1000) x).initError?.map
      fun r => (r.1, Trace.writes r.2.2, r.2.1.driver.ports.bases)) =
      some (.transmit .invalidArgument, [(0x10a0, 0xff), (0x1000, 0x80), (0x1004, 0x34),
        (0x10a8, 0x10), (0x10a8, 0x20), (0x103c, 0)], []) := by
    decide +kernel
  obtain ⟨⟨e, x', t⟩, hfails, heq⟩ := Option.map_eq_some_iff.1 hrun
  obtain ⟨rfl, hrest⟩ := Prod.mk.inj heq
  obtain ⟨hwrites, hbases⟩ := Prod.mk.inj hrest
  exact ⟨x, x', t, rfl, rfl, hresponsive, ⟨⟨rfl, rfl⟩, ⟨rfl, rfl, rfl⟩⟩, rfl,
    Run.eq_of_initError? hfails, hwrites, hbases⟩

end Sessions

end PolledUart
