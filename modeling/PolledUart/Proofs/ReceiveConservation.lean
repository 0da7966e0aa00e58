import PolledUart.Proofs.BringUp
import PolledUart.Proofs.History
import PolledUart.Proofs.Punctual

/-!
# No received character is lost, but for late ones

A character that has arrived is handed out, or is in the cache of the port, or waits
in the receive queue of the block. Whenever characters arrive, none of them is
duplicated and none overtakes another; and none is lost exactly if no forced fetch is
met by an arrival (`Trace.Punctual`).

* `Conserves` — what a part of a run does to the characters, as an account of it.
* `conserves_of_takes`, `conserves_of_reads` — reading a character, and several.
* `received_of_history` — the characters of a whole history.
-/

namespace PolledUart

open Sim Trace

/-! ### Reading characters -/

section Reading

variable {b : Block} {schedule : Schedule Bench.Control} {x y z : Rig Bench} {t u : List Event}

/-- A part of a run that ends in the middle of no fetch, and keeps account of all characters
that arrive meanwhile. -/
structure Conserves (b : Block) (schedule : Schedule Bench.Control) (x : Rig Bench)
    (before : List UInt8) (t : List Event) (handed : List UInt8) (y : Rig Bench)
    (after : List UInt8) : Prop where
  reads : y.reads = x.reads + readCount t
  ready : Ready b y
  settled : Settled b t
  keeps : Keeps (Punctual b (Bench.arrivalsAt schedule) x.reads t) before
    (arrivedDuring (Bench.arrivalsAt schedule) x.reads (readCount t)) handed after

namespace Conserves

variable {before mid after handed handed' : List UInt8}

/-- Characters are handed out without an access. -/
theorem of_nil (hx : Ready b x) (h : handed ++ after = before) :
    Conserves b schedule x before [] handed x after where
  reads := rfl
  ready := hx
  settled := settled_nil
  keeps := (Keeps.of_eq (by rw [h]; exact (List.append_nil before).symm)).congr
    (iff_of_true trivial (punctual_of_not_mem List.not_mem_nil))

theorem append (h : Conserves b schedule x before t handed y mid)
    (h' : Conserves b schedule y mid u handed' z after) :
    Conserves b schedule x before (t ++ u) (handed ++ handed') z after where
  reads := by rw [h'.reads, h.reads, readCount_append, Nat.add_assoc]
  ready := h'.ready
  settled := h.settled.append h'.settled
  keeps := by
    rw [readCount_append, arrivedDuring_add, ← h.reads]
    refine (h.keeps.trans h'.keeps).congr ?_
    rw [punctual_append_iff h.settled h'.settled, h.reads]

/-- Some of the characters that are left are handed out. -/
theorem hand (bytes : List UInt8)
    (h : Conserves b schedule x before t handed y (bytes ++ after)) :
    Conserves b schedule x before t (handed ++ bytes) y after :=
  ⟨h.reads, h.ready, h.settled, h.keeps.hand⟩

end Conserves

theorem conserves_of_brings {r : Option Received} (hx : Ready b x) (hm : Bench.TellsApart b.map)
    (h : Brings b t r) (hpath : Bus.Path (Bench.hardware.rigged schedule).Step x t y) :
    Conserves b schedule x x.device.rx t [] y (brought r ++ y.device.rx) := by
  have fetches : ∀ {x y t r}, Ready b x → Fetches b t r →
      Bus.Path (Bench.hardware.rigged schedule).Step x t y →
      Conserves b schedule x x.device.rx t [] y (brought r ++ y.device.rx) := by
    intro x y t r hx hf hpath
    obtain ⟨hready, hkeeps⟩ := keeps_of_fetches hx hm hf hpath
    exact ⟨Bench.reads_of_path hpath, hready, hf.settled, hkeeps⟩
  induction h generalizing x with
  | last hf => exact fetches hx hf hpath
  | again hf _ ih =>
    obtain ⟨w, hfirst, hlater⟩ := Bus.path_append_iff.1 hpath
    have hnothing := fetches hx hf hfirst
    exact hnothing.append (ih hnothing.ready hlater)

theorem conserves_of_takes {c c' : RxCache} {r : Except IoError UInt8} (hx : Ready b x)
    (hm : Bench.TellsApart b.map) (hc : c.remaining ≤ 4) (h : Takes b c t r c')
    (hpath : Bus.Path (Bench.hardware.rigged schedule).Step x t y) :
    c'.remaining ≤ 4 ∧ Conserves b schedule x (c.toList ++ x.device.rx) t (taken r) y
      (c'.toList ++ y.device.rx) := by
  cases h with
  | cached hpop =>
    obtain rfl := Bus.path_nil_iff.1 hpath
    refine ⟨RxCache.remaining_of_pop? hpop hc, .of_nil hx ?_⟩
    rw [RxCache.toList_of_pop? hpop hc]
    rfl
  | @fetched _ _ received byte hempty hb hpop =>
    obtain ⟨t₁, t₂, -, hf⟩ := hb.exists_fetches
    have hlength : (RxCache.ofReceived received).remaining ≤ 4 :=
      UInt8.le_iff_toNat_le.2 hf.length_le
    have hkeeps := conserves_of_brings hx hm hb hpath
    have hlist : received.toList = byte :: c'.toList := RxCache.toList_of_pop? hpop hlength
    have hnone : c.toList = [] := RxCache.toList_of_isEmpty hempty
    rw [brought, hlist] at hkeeps
    rw [hnone]
    exact ⟨RxCache.remaining_of_pop? hpop hlength, hkeeps.hand [byte]⟩
  | nothing hempty hb =>
    have hnone : c.toList = [] := RxCache.toList_of_isEmpty hempty
    rw [hnone]
    exact ⟨hc, conserves_of_brings hx hm hb hpath⟩

/-- **Reading** neither duplicates nor reorders a character, and loses none if it is punctual. -/
theorem conserves_of_reads {c c' : RxCache} {bytes : List UInt8} (hx : Ready b x)
    (hm : Bench.TellsApart b.map) (hc : c.remaining ≤ 4) (h : Reads b c t bytes c')
    (hpath : Bus.Path (Bench.hardware.rigged schedule).Step x t y) :
    c'.remaining ≤ 4 ∧ Conserves b schedule x (c.toList ++ x.device.rx) t bytes y
      (c'.toList ++ y.device.rx) := by
  induction h generalizing x with
  | done =>
    obtain rfl := Bus.path_nil_iff.1 hpath
    exact ⟨hc, .of_nil hx rfl⟩
  | byte ht _ ih | nothing ht _ ih =>
    obtain ⟨w, hfirst, hlater⟩ := Bus.path_append_iff.1 hpath
    obtain ⟨hc₁, hone⟩ := conserves_of_takes hx hm hc ht hfirst
    obtain ⟨hc', hmore⟩ := ih hone.ready hc₁ hlater
    exact ⟨hc', hone.append hmore⟩

end Reading

/-! ### Calls -/

variable {slots : Nat}

/-- The characters an answer hands out. -/
def Reply.handed : Reply → List UInt8
  | .byte r => taken r
  | .buffer bytes _ => bytes
  | _ => []

/-- The characters an entry hands out. -/
def Entry.handed {κ : Type} : Entry slots κ → List UInt8
  | .call _ _ reply _ => reply.handed
  | .control _ => []

/-- A call reads a port: one character, or up to a number of them. -/
def Call.ReadsFrom (port : PortId) : Call → Prop
  | .getChar p _ => p = port
  | .readBytes p _ => p = port
  | _ => False

theorem reads_of_call {σ : Type} {bus : Bus σ} {s s' : σ} {t : List Event} {fuel : Nat}
    {d d' : Driver slots} {port : PortId} {base : Address} {c : Call} {reply : Reply}
    (hc : c.ReadsFrom port) (hport : d.ports.resolve port = some base)
    (h : bus.Completes (c.program fuel d) s t (reply, d') s') :
    ∃ cache, Reads (d.block base) (d.cacheOf port) t reply.handed cache ∧
      d' = d.withCache port cache := by
  cases c with
  | getChar p wait =>
    obtain rfl : p = port := hc
    obtain ⟨⟨r, d₁⟩, h₁, hr⟩ := Bus.completes_bind_done_iff.1 h
    obtain ⟨rfl, rfl⟩ := Prod.mk.inj hr
    obtain ⟨cache, ht, rfl⟩ := Driver.takes_of_getChar hport h₁
    refine ⟨cache, ?_, rfl⟩
    cases r with
    | ok _ => exact .of_byte ht
    | error _ => exact .of_error ht
  | readBytes p room =>
    obtain rfl : p = port := hc
    obtain ⟨⟨filled, d₁⟩, h₁, hr⟩ := Bus.completes_bind_done_iff.1 h
    obtain ⟨rfl, rfl⟩ := Prod.mk.inj hr
    exact Driver.reads_of_readBytes hport h₁
  | _ => exact absurd hc not_false

/-! ### Histories of reads -/

/-- The characters that arrive in a history, between the calls and in the middle of them. Before it
there were `n` reads. -/
def arrivedIn (schedule : Schedule Bench.Control) :
    Nat → List (Entry slots Bench.Control) → List UInt8
  | _, [] => []
  | n, .call _ _ _ t :: rest =>
    arrivedDuring (Bench.arrivalsAt schedule) n (readCount t) ++
      arrivedIn schedule (n + readCount t) rest
  | n, .control k :: rest => k.received ++ arrivedIn schedule n rest

namespace Session

/-- The characters that have been received and not handed out: those in the cache of a port, and
those that wait in the block. -/
def unread (port : PortId) (s : Session (Rig Bench) slots) : List UInt8 :=
  (s.driver.cacheOf port).toList ++ s.bus.device.rx

/-- A port of the driver is a bench block, ready to be read. -/
structure Receives (port : PortId) (b : Block) (s : Session (Rig Bench) slots) : Prop where
  resolve : s.driver.ports.resolve port = some b.base
  registers : s.driver.config.registers = b.map
  cache : (s.driver.cacheOf port).remaining ≤ 4
  ready : Ready b s.bus

end Session

section Histories

variable {b : Block} {schedule : Schedule Bench.Control} {port : PortId}
  {entries : List (Entry slots Bench.Control)} {x x' : Session (Rig Bench) slots}

theorem ready_of_follows {r r' : Rig Bench} {arrived : List UInt8} (hr : Ready b r)
    (h : r.device.Follows r'.device arrived) : Ready b r' :=
  ⟨h.serves hr.serves, h.stale.trans hr.settled⟩

/-- Reading keeps account of all characters, over any history of reads. -/
theorem keeps_of_history (hm : Bench.TellsApart b.map) (hx : x.Receives port b)
    (hcalls : ∀ e ∈ entries, e.Calls (Call.ReadsFrom port))
    (h : History (Bench.hardware.rigged schedule) Bench.hardware.operate x entries x') :
    Settled b (entries.flatMap Entry.trace) ∧
      Keeps (Punctual b (Bench.arrivalsAt schedule) x.bus.reads (entries.flatMap Entry.trace))
        (x.unread port) (arrivedIn schedule x.bus.reads entries)
        (entries.flatMap Entry.handed) (x'.unread port) := by
  induction h with
  | nil =>
    exact ⟨settled_nil, (Conserves.of_nil hx.ready (List.nil_append _)).keeps⟩
  | @call x x₁ x' _ c reply t rest hperform _ ih =>
    have hrun := Session.perform_eq_ok_iff.1 hperform
    obtain ⟨cache, hreads, hd⟩ := reads_of_call (hcalls _ List.mem_cons_self) hx.resolve hrun
    have hblock : x.driver.block b.base = b := by
      rw [Driver.block, hx.registers]
    have hcache : x₁.driver.cacheOf port = cache := by
      rw [hd, Driver.cacheOf_withCache (Driver.index_lt_of_resolve hx.resolve)]
    rw [hblock] at hreads
    obtain ⟨hle, hone⟩ := conserves_of_reads hx.ready hm hx.cache hreads hrun.path
    obtain ⟨hsettled, hlater⟩ := ih ⟨hd ▸ hx.resolve, hd ▸ hx.registers, hcache ▸ hle, hone.ready⟩
      fun e he => hcalls e (List.mem_cons_of_mem _ he)
    refine ⟨hone.settled.append hsettled, ?_⟩
    have hunread : cache.toList ++ x₁.bus.device.rx = x₁.unread port := by
      rw [Session.unread, hcache]
    have hboth := (hunread ▸ hone.keeps).trans hlater
    rw [hone.reads] at hboth
    exact hboth.congr (punctual_append_iff hone.settled hsettled).symm
  | @control x x' k y rest hoperate _ ih =>
    obtain ⟨hf, hreads⟩ := Bench.follows_of_operate hoperate
    obtain ⟨hsettled, hlater⟩ := ih
      ⟨hx.resolve, hx.registers, hx.cache, ready_of_follows hx.ready hf⟩
      fun e he => hcalls e (List.mem_cons_of_mem _ he)
    refine ⟨hsettled, ?_⟩
    have hone : Keeps True (x.unread port) k.received [] (Session.unread port ⟨x.driver, y⟩) := by
      refine .of_eq ?_
      rw [Session.unread, Session.unread, hf.rx, List.nil_append, List.append_assoc]
    have hboth := hone.trans hlater
    rw [hreads] at hboth
    exact hboth.congr (iff_of_eq (true_and _))

end Histories

/-! ### After bringing up a port -/

section BringUp

variable {b : Block} {schedule : Schedule Bench.Control} {port : PortId}

/-- Only the command pushes out the packing buffer. -/
theorem stale_write {d : Bench} {a : Address} {v : UInt32} (hd : d.Serves b)
    (hne : Event.act (.write a v) ≠ forceEvent b) (h : d.stale = false) :
    (d.write a v).stale = false := by
  have hobey : ∀ d' : Bench, v ≠ Command.forceStale → (d'.obey v).stale = d'.stale := by
    intro d' hv
    unfold Bench.obey
    dsimp only
    repeat' split
    all_goals rfl
  unfold Bench.write Bench.writeAt Bench.takeWord Bench.store
  dsimp only
  repeat' split
  all_goals try exact h
  -- the access is to the command register
  rename_i hcr
  refine (hobey _ fun hv => hne ?_).trans h
  have ha : a = b.location .cr := by
    rw [Block.location, ← hd.1, ← hd.2]
    exact (UInt64.sub_eq_iff_eq_add.1 hcr).trans (UInt64.add_comm ..)
  rw [ha, hv]
  rfl

theorem stale_read {d : Bench} {a : Address} (h : d.stale = false) :
    (d.read a).2.stale = false := by
  unfold Bench.read Bench.readAt Bench.readStatus Bench.readInterruptStatus Bench.readData
    Bench.popWord
  dsimp only
  repeat' split
  all_goals first | exact h | rfl

/-- A block stays ready as long as its packing buffer is not pushed out. -/
theorem ready_of_path {x y : Rig Bench} {t : List Event} (hx : Ready b x)
    (h : Bus.Path (Bench.hardware.rigged schedule).Step x t y) (ht : forceEvent b ∉ t) :
    Ready b y := by
  induction h with
  | nil => exact hx
  | @cons x y z e t hstep _ ih =>
    refine ih ?_ fun hmem => ht (List.mem_cons_of_mem _ hmem)
    cases e with
    | read a v =>
      obtain ⟨device, hf, hread, -⟩ := Bench.step_read hstep
      have hdevice : y.device = (device.read a).2 := by rw [hread]
      exact ⟨hdevice ▸ (hf.serves hx.serves).read a,
        hdevice ▸ stale_read (hf.stale.trans hx.settled)⟩
    | act c =>
      by_cases hc : ∃ a v, c = .write a v
      · obtain ⟨a, v, rfl⟩ := hc
        have hdevice := (Bench.step_write hstep).1
        have hne : Event.act (.write a v) ≠ forceEvent b := fun he => ht (he ▸ List.mem_cons_self)
        exact ⟨hdevice ▸ hx.serves.write a v, hdevice ▸ stale_write hx.serves hne hx.settled⟩
      · obtain ⟨_, hf, -⟩ := Bench.step_aside (fun a v e => hc ⟨a, v, e⟩) hstep
        exact ready_of_follows hx hf

/-- Bringing up a port does not push out the packing buffer: it writes plain registers and gives
other commands. -/
theorem force_not_mem_of_init {σ : Type} {bus : Bus σ} {s s' : σ} {t : List Event}
    {d d' : Driver slots} {board : Board} {number : UInt8} {wrapper : Option Address} {fuel : Nat}
    {result : Except InitError PortId} (hm : Bench.TellsApart b.map) (hb : d.block b.base = b)
    (ha : d.Accepts b.base)
    (h : bus.Completes (d.init fuel board number wrapper b.base) s t (result, d') s') :
    forceEvent b ∉ t := by
  obtain ⟨s₁, t₁, t₂, r, hprepare, hbanner, rfl, -, -⟩ := Driver.completes_init ha h
  rw [hb] at hprepare hbanner
  have hplain : ∀ q : Register, q ∈ Register.written → q ≠ .cr → ∀ v,
      Action.write (b.location q) v ≠ .write (b.location .cr) Command.forceStale :=
    fun q hq hne v he =>
      hm.writes .cr (by simp) q hq hne (Block.location_inj.1 (Action.write.inj he).1)
  have hother : ∀ a v, v ≠ Command.forceStale →
      Action.write a v ≠ .write (b.location .cr) Command.forceStale :=
    fun a v hv he => hv (Action.write.inj he).2
  have hprepared := hprepare.meets (Driver.meets_prepare
    (P := (· ≠ .write (b.location .cr) Command.forceStale)) nofun nofun nofun
    (fun w _ => hother _ _ (by decide))
    (fun q hq v => hplain q (by revert q; decide) (by revert q; decide) v)
    (fun c hc => hother _ _ (by rcases List.mem_pair.1 hc with rfl | rfl <;> decide)))
  intro hmem
  rcases List.mem_append.1 hmem with hmem | hmem
  · exact hprepared.2 _ hmem rfl
  unfold Driver.sendBanner at hbanner
  split at hbanner
  · obtain ⟨rfl, -, -⟩ := Bus.completes_done_iff.1 hbanner
    exact absurd hmem List.not_mem_nil
  · have hsent := hbanner.meets (Transmit.meets_transmit
      (P := (· ≠ .write (b.location .cr) Command.forceStale)) nofun nofun nofun
      (hplain _ (by decide) (by decide))
      (fun c hc => hother _ _ (by rcases List.mem_pair.1 hc with rfl | rfl <;> decide))
      (hplain _ (by decide) (by decide)))
    exact hsent.2 _ hmem rfl

/-- A port that has just been brought up is ready to be read. -/
theorem receives_of_init {board : Board} {number : UInt8} {wrapper : Option Address} {fuel : Nat}
    {x x' : Session (Rig Bench) slots} {t : List Event} (hm : Bench.TellsApart b.map)
    (hx : Ready b x.bus) (hregisters : x.driver.config.registers = b.map)
    (h : Session.perform (Bench.hardware.rigged schedule) fuel
      (.init board number wrapper b.base) x = ⟨.ok (.port (.ok port)) x', t⟩) :
    x'.driver.cacheOf port = .empty ∧ x'.Receives port b := by
  obtain ⟨⟨result, d⟩, hinit, hr⟩ := Bus.completes_bind_done_iff.1 (Session.perform_eq_ok_iff.1 h)
  obtain ⟨hresult, rfl⟩ := Prod.mk.inj hr
  obtain rfl := Reply.port.inj hresult
  have hblock : x.driver.block b.base = b := by
    rw [Driver.block, hregisters]
  have ha : x.driver.Accepts b.base := by
    refine Decidable.by_contra fun ha => ?_
    obtain ⟨e, -, hrefused⟩ := Driver.init_of_not_accepted ha
    rw [hrefused] at hinit
    exact absurd (Prod.mk.inj (Bus.completes_done_iff.1 hinit).2.1).1 nofun
  have hready : Ready b x'.bus :=
    ready_of_path hx hinit.path (force_not_mem_of_init hm hblock ha hinit)
  obtain ⟨_, _, _, r, -, -, -, hconfig, hend⟩ := Driver.completes_init ha hinit
  rcases hend with ⟨e, -, he, -⟩ | ⟨-, ⟨he, -⟩ | ⟨id, he, hopens⟩⟩
  · cases he
  · cases he
  · obtain rfl := Except.ok.inj he
    have hcache : x'.driver.cacheOf port = .empty := by
      rw [Driver.cacheOf, hopens.gains.cache]
      rfl
    refine ⟨hcache, hopens.gains.resolve, by rw [hconfig, hregisters], ?_, hready⟩
    rw [hcache]
    decide

theorem ready_of_controls {entries : List (Entry slots Bench.Control)}
    {x x' : Session (Rig Bench) slots} (hx : Ready b x.bus)
    (hcontrols : ∀ e ∈ entries, e.Calls fun _ => False)
    (h : History (Bench.hardware.rigged schedule) Bench.hardware.operate x entries x') :
    x'.driver = x.driver ∧ Ready b x'.bus := by
  induction h with
  | nil => exact ⟨rfl, hx⟩
  | call _ _ _ => exact absurd (hcontrols _ List.mem_cons_self) not_false
  | control hoperate _ ih =>
    exact ih (ready_of_follows hx (Bench.follows_of_operate hoperate).1)
      fun e he => hcontrols e (List.mem_cons_of_mem _ he)

end BringUp

/-! ### The account of a session -/

section Sessions

variable {config : Config} {base : Address} {schedule : Schedule Bench.Control}
  {settingUp entries : List (Entry slots Bench.Control)} {x x₀ x' : Session (Rig Bench) slots}
  {board : Board} {number : UInt8} {wrapper : Option Address} {fuel : Nat} {port : PortId}
  {t : List Event}

/-- **What becomes of received characters.** A driver and a bench block of its layout start
afresh, and a port is brought up at the base of the block. Then after any history of reads of the
port, whenever characters arrive, what was handed out and what is still unread are the characters
that waited when the port was brought up and those that arrived since, in order, but for lost ones;
and none is lost exactly if no forced fetch was met by an arrival. -/
theorem received_of_history (hmap : config.registers = .blsp ∨ config.registers = .gsbi)
    (hcontrols : ∀ e ∈ settingUp, e.Calls fun _ => False)
    (hsetup : History (Bench.hardware.rigged schedule) Bench.hardware.operate
      ⟨.new config, .start (.new base config.registers)⟩ settingUp x)
    (hinit : Session.perform (Bench.hardware.rigged schedule) fuel
      (.init board number wrapper base) x = ⟨.ok (.port (.ok port)) x₀, t⟩)
    (hcalls : ∀ e ∈ entries, e.Calls (Call.ReadsFrom port))
    (h : History (Bench.hardware.rigged schedule) Bench.hardware.operate x₀ entries x') :
    (entries.flatMap Entry.handed ++ x'.unread port).Sublist
        (x₀.bus.device.rx ++ arrivedIn schedule x₀.bus.reads entries) ∧
      (entries.flatMap Entry.handed ++ x'.unread port =
          x₀.bus.device.rx ++ arrivedIn schedule x₀.bus.reads entries ↔
        Punctual ⟨base, config.registers⟩ (Bench.arrivalsAt schedule) x₀.bus.reads
          (entries.flatMap Entry.trace)) := by
  have hm := Bench.tellsApart_of_known hmap
  obtain ⟨hdriver, hready⟩ := ready_of_controls (b := ⟨base, config.registers⟩)
    ⟨⟨rfl, rfl⟩, rfl⟩ hcontrols hsetup
  obtain ⟨hcache, hreceives⟩ := receives_of_init (b := ⟨base, config.registers⟩) hm hready
    (by rw [hdriver]; rfl) hinit
  obtain ⟨-, hkeeps⟩ := keeps_of_history hm hreceives hcalls h
  have hunread : x₀.unread port = x₀.bus.device.rx := by
    rw [Session.unread, hcache]
    rfl
  rw [hunread] at hkeeps
  exact ⟨hkeeps.sublist, hkeeps.eq_iff⟩

/-- A character that arrives right before the count is read, and four that complete a word between
two looks at the status, are handed out; one that arrives between two calls waits. -/
theorem received_of_history_punctual :
    ∃ (schedule : Schedule Bench.Control) (x₀ x' : Session (Rig Bench) 4)
      (entries : List (Entry 4 Bench.Control)) (t : List Event),
      schedule.controls = [(.read 3, .receive [0x61]), (.read 6, .receive [0x62, 0x63, 0x64, 0x65])] ∧
      Session.perform (Bench.hardware.rigged schedule) 0 (.init .ready 1 none 0x1000)
        ⟨.new { Config.standard with banner := none }, .start (.new 0x1000 .blsp)⟩ =
          ⟨.ok (.port (.ok ⟨0⟩)) x₀, t⟩ ∧
      History (Bench.hardware.rigged schedule) Bench.hardware.operate x₀ entries x' ∧
      (∀ e ∈ entries, e.Calls (Call.ReadsFrom ⟨0⟩)) ∧
      entries.flatMap Entry.handed = [0x61, 0x62, 0x63, 0x64, 0x65] ∧ x'.unread ⟨0⟩ = [0x66] ∧
      Punctual ⟨0x1000, .blsp⟩ (Bench.arrivalsAt schedule) x₀.bus.reads
        (entries.flatMap Entry.trace) := by
  let schedule : Schedule Bench.Control :=
    ⟨[(.read 3, .receive [0x61]), (.read 6, .receive [0x62, 0x63, 0x64, 0x65])], 1000⟩
  let moves : List (Move Bench.Control) :=
    [.call 0 (.getChar ⟨0⟩ true), .call 0 (.readBytes ⟨0⟩ 8), .control (.receive [0x66])]
  have hmoves : ∀ m ∈ moves, m.Calls (Call.ReadsFrom ⟨0⟩) := by
    simp [moves, Move.Calls, Call.ReadsFrom]
  have hrun : (Session.replayPort (Bench.hardware.rigged schedule) Bench.hardware.operate 0
      (.init .ready 1 none 0x1000) moves (⟨.new { Config.standard with banner := none },
        .start (.new 0x1000 .blsp)⟩ : Session (Rig Bench) 4)).map
        (fun (port, x₀, entries, x') => (port, entries.flatMap Entry.handed, x'.unread ⟨0⟩,
          x₀.bus.device.rx ++ arrivedIn schedule x₀.bus.reads entries)) =
      some (⟨0⟩, [0x61, 0x62, 0x63, 0x64, 0x65], [0x66],
        [0x61, 0x62, 0x63, 0x64, 0x65, 0x66]) := by
    decide +kernel
  obtain ⟨⟨port, x₀, entries, x'⟩, hreplay, hvalues⟩ := Option.map_eq_some_iff.1 hrun
  simp only [Prod.mk.injEq] at hvalues
  obtain ⟨rfl, hhanded, hunread, harrived⟩ := hvalues
  obtain ⟨⟨t, hinit⟩, hhistory, hcalls⟩ := history_of_replayPort hreplay
  refine ⟨schedule, x₀, x', entries, t, rfl, hinit, hhistory, hcalls _ hmoves, hhanded, hunread, ?_⟩
  have haccount := received_of_history (.inl (by rfl)) (fun _ he => absurd he List.not_mem_nil)
    .nil hinit (hcalls _ hmoves) hhistory
  refine haccount.2.1 ?_
  rw [hhanded, hunread, harrived]
  rfl

/-- A character that arrives right before the word is read, after the count has been: it is in the
word, but nobody gets it. -/
theorem received_of_history_late :
    ∃ (schedule : Schedule Bench.Control) (x₀ x' : Session (Rig Bench) 4)
      (entries : List (Entry 4 Bench.Control)) (t : List Event),
      schedule.controls = [(.read 4, .receive [0x62])] ∧
      Session.perform (Bench.hardware.rigged schedule) 0 (.init .ready 1 none 0x1000)
        ⟨.new { Config.standard with banner := none }, .start (.new 0x1000 .blsp)⟩ =
          ⟨.ok (.port (.ok ⟨0⟩)) x₀, t⟩ ∧
      History (Bench.hardware.rigged schedule) Bench.hardware.operate x₀ entries x' ∧
      (∀ e ∈ entries, e.Calls (Call.ReadsFrom ⟨0⟩)) ∧
      x₀.bus.device.rx ++ arrivedIn schedule x₀.bus.reads entries = [0x61, 0x62] ∧
      entries.flatMap Entry.handed = [0x61] ∧ x'.unread ⟨0⟩ = [] := by
  let schedule : Schedule Bench.Control := ⟨[(.read 4, .receive [0x62])], 1000⟩
  let moves : List (Move Bench.Control) :=
    [.control (.receive [0x61]), .call 0 (.getChar ⟨0⟩ false), .call 0 (.getChar ⟨0⟩ false)]
  have hmoves : ∀ m ∈ moves, m.Calls (Call.ReadsFrom ⟨0⟩) := by
    simp [moves, Move.Calls, Call.ReadsFrom]
  have hrun : (Session.replayPort (Bench.hardware.rigged schedule) Bench.hardware.operate 0
      (.init .ready 1 none 0x1000) moves (⟨.new { Config.standard with banner := none },
        .start (.new 0x1000 .blsp)⟩ : Session (Rig Bench) 4)).map
        (fun (port, x₀, entries, x') =>
          (port, x₀.bus.device.rx ++ arrivedIn schedule x₀.bus.reads entries,
            entries.flatMap Entry.handed, x'.unread ⟨0⟩)) =
      some (⟨0⟩, [0x61, 0x62], [0x61], []) := by
    decide +kernel
  obtain ⟨⟨port, x₀, entries, x'⟩, hreplay, hvalues⟩ := Option.map_eq_some_iff.1 hrun
  simp only [Prod.mk.injEq] at hvalues
  obtain ⟨rfl, harrived, hhanded, hunread⟩ := hvalues
  obtain ⟨⟨t, hinit⟩, hhistory, hcalls⟩ := history_of_replayPort hreplay
  exact ⟨schedule, x₀, x', entries, t, rfl, hinit, hhistory, hcalls _ hmoves, harrived, hhanded,
    hunread⟩

end Sessions

end PolledUart
