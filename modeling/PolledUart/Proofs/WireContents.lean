import PolledUart.Proofs.Attempts
import PolledUart.Proofs.BenchTransfers
import PolledUart.Proofs.Handshake
import Mathlib.Data.List.Forall2

/-!
# What a session puts on the wire

A bench block credits a word to the latest announced transfer, so what one call puts
on the wire could depend on what an earlier one left behind. It does not: whatever
happens in a session, and whatever its operator does to the block, the wire carries
one piece for each attempted transfer, in the order of the calls, and the announced
counts are those of the transfers that got past the idle wait.

* `Carries` — what a piece of a trace adds to the record of a block is what some
  attempts put on the wire. It is shown of a transfer (`carries_transmit`) and of
  each call (`carries_call`).
* `wire_of_history` — the wire after a whole history.
-/

namespace PolledUart

open Newline Transmit Sim

variable {slots : Nat} {σ : Type} {bus : Bus σ} {b : Block} {s s' : σ} {t u : List Event}

/-- What the events of a trace add to the record of the transfers is what some attempts put on
the wire and announced; each that was announced has opened a critical section. -/
structure Carries (b : Block) (t : List Event) (attempts : List Attempt) : Prop where
  record : ∃ new : List Transfer,
    (∀ ts, (Trace.writes t).foldl (Bench.record b) ts = new.reverse ++ ts) ∧
      new.flatMap Transfer.bytes = attempts.flatMap Attempt.wire ∧
      new.map (·.chars.toNat) = attempts.flatMap Attempt.announced
  entered : t.count (.act .enter) = (attempts.flatMap Attempt.announced).length

namespace Carries

theorem of_spares (h : ∀ c, .act c ∈ t → b.Spares c) : Carries b t [] where
  record := ⟨[], Bench.record_of_spares h, rfl, rfl⟩
  entered := List.count_eq_zero.2 fun he => (h _ he).2.2 rfl

theorem nil : Carries b [] [] := of_spares fun _ h => absurd h List.not_mem_nil

theorem append {attempts attempts' : List Attempt} (h : Carries b t attempts)
    (h' : Carries b u attempts') : Carries b (t ++ u) (attempts ++ attempts') := by
  obtain ⟨new, hnew, hwire, hcount⟩ := h.record
  obtain ⟨new', hnew', hwire', hcount'⟩ := h'.record
  refine ⟨⟨new ++ new', fun ts => ?_, ?_, ?_⟩, ?_⟩
  · rw [Trace.writes_append, List.foldl_append, hnew, hnew', List.reverse_append,
      List.append_assoc]
  · rw [List.flatMap_append, hwire, hwire', List.flatMap_append]
  · rw [List.map_append, hcount, hcount', List.flatMap_append]
  · rw [List.count_append, h.entered, h'.entered, List.flatMap_append, List.length_append]

end Carries

/-! ### One transfer -/

/-- The record of an announcement, some first words, and perhaps the reset. -/
theorem record_announced (hm : Bench.TellsApart b.map) (count : UInt32) (ws : List FifoWord)
    (ts : List Transfer) :
    (header b count ++ ws.map b.dataWrite).foldl (Bench.record b) ts = ⟨count, ws.toArray⟩ :: ts := by
  rw [List.foldl_append, Bench.record_header hm]
  exact Bench.record_words ws count [] ts

theorem count_enter_announced {words : List FifoWord} {count : UInt32} {idle inside : List Event}
    {r₁ r₂ : Except IoError Unit} (hi : Idles b idle r₁) (hs : Sends b words inside r₂) :
    (idle ++ announced b count inside).count (.act .enter) = 1 := by
  have h₁ := List.count_eq_zero.2 hi.unmarked.1
  have h₂ := List.count_eq_zero.2 hs.unmarked.1
  simp [announced, Block.writeEvent, h₁, h₂]

/-- **A transfer puts on the wire what its result tells**: all of its text, or some first words
of it, or nothing. -/
theorem carries_transmit (hm : Bench.TellsApart b.map) {policy : PollPolicy} {fuel : Nat}
    {text : List UInt8} {r : Except IoError Unit}
    (h : bus.Completes (transmit b policy fuel text) s t r s') :
    ∃ attempts, Sending [text] r attempts ∧ Carries b t attempts := by
  by_cases hs : Sendable text
  · obtain ⟨hne, hfit⟩ := hs
    obtain ⟨count, hc, hcount⟩ := count?_of_lt hfit
    cases transmits_of_completes hne hc h with
    | @blocked _ e hi =>
      obtain rfl := hi.error_eq
      refine ⟨[.blocked text], .blocked ⟨hne, hfit⟩, ⟨[], fun ts => ?_, rfl, rfl⟩, ?_⟩
      · rw [hi.writes_eq]
        rfl
      · exact List.count_eq_zero.2 hi.unmarked.1
    | @started idle inside _ hi hsend =>
      have hw : ∀ ts, (Trace.writes (idle ++ announced b count inside)).foldl (Bench.record b) ts =
          (header b count ++ Trace.writes inside).foldl (Bench.record b) ts := by
        intro ts
        rw [Trace.writes_append, hi.writes_eq, writes_announced, List.nil_append]
      have hbytes : ∀ k, Transfer.bytes ⟨count, ((words text).take k).toArray⟩ =
          (expand text).take (4 * k) := by
        intro k
        rw [Transfer.bytes, hcount, ← take_lanes_words]
      rcases hsend.writes_eq with ⟨rfl, hu⟩ | ⟨rfl, k, hk, hu⟩
      · refine ⟨[.sent text], .sent ⟨hne, hfit⟩ .done, ⟨[⟨count, (words text).toArray⟩],
          fun ts => ?_, ?_, ?_⟩, count_enter_announced hi hsend⟩
        · rw [hw, hu, record_announced hm]
          rfl
        · have hall := hbytes (words text).length
          rw [List.take_length, List.take_of_length_le (by
            rw [length_expand, length_words]; omega)] at hall
          simp [hall, Attempt.wire]
        · simp [hcount, Attempt.announced]
      · have hk' : 4 * k < physicalLength text := by
          rw [length_words] at hk
          omega
        refine ⟨[.cut text k], .cut ⟨hne, hfit⟩ hk', ⟨[⟨count, ((words text).take k).toArray⟩],
          fun ts => ?_, ?_, ?_⟩, count_enter_announced hi hsend⟩
        · -- the reset is a command, and no part of the record
          rw [hw, hu, ← List.append_assoc, List.foldl_append, record_announced hm,
            List.foldl_cons, List.foldl_nil, Bench.record_command hm]
          rfl
        · simp [hbytes k, Attempt.wire]
        · simp [hcount, Attempt.announced]
  · have hrefused : text = [] ∨ 0x100000000 ≤ physicalLength text := by
      by_cases hne : text = []
      · exact .inl hne
      · exact .inr (Nat.not_lt.1 fun hlt => hs ⟨hne, hlt⟩)
    rw [transmit_of_refused hrefused] at h
    obtain ⟨rfl, rfl, rfl⟩ := Bus.completes_done_iff.1 h
    exact ⟨[], .refused hs, .nil⟩

/-! ### One call -/

/-- Some texts were handed to the transmitter, and what came of them is what the trace carries;
if there were any, `R` tells how the sending ended. -/
def Accounts (b : Block) (texts : List (List UInt8)) (t : List Event)
    (R : Except IoError Unit → Prop) : Prop :=
  ∃ r attempts, Sending texts r attempts ∧ (texts ≠ [] → R r) ∧ Carries b t attempts

theorem accounts_nil {R : Except IoError Unit → Prop} (h : ∀ c, .act c ∈ t → b.Spares c) :
    Accounts b [] t R :=
  ⟨.ok (), [], .done, fun hne => absurd rfl hne, .of_spares h⟩

theorem Accounts.mono {texts : List (List UInt8)} {R R' : Except IoError Unit → Prop}
    (h : Accounts b texts t R) (hR : ∀ r, R r → R' r) : Accounts b texts t R' := by
  obtain ⟨r, attempts, hs, hr, hc⟩ := h
  exact ⟨r, attempts, hs, fun hne => hR r (hr hne), hc⟩

namespace Driver

variable {d d' : Driver slots} {config : Config} {base : Address} {fuel : Nat} {port : PortId}

/-- The driver has a configuration, and all its ports are at one base. -/
def At (d : Driver slots) (config : Config) (base : Address) : Prop :=
  d.config = config ∧ ∀ a ∈ d.ports.bases, a = base

theorem At.block_eq (hd : d.At config base) : d.block base = ⟨base, config.registers⟩ := by
  rw [block, hd.1]

theorem At.sameSetup (hd : d.At config base) (h : d.SameSetup d') : d'.At config base :=
  ⟨h.1.trans hd.1, h.2 ▸ hd.2⟩

theorem At.allows (hd : d.At config base) (hm : Bench.TellsApart config.registers) :
    d.Allows (Block.Spares ⟨base, config.registers⟩) := by
  intro a ha v
  obtain rfl := hd.2 a ha
  rw [hd.block_eq]
  exact ⟨hm.spares_write (by decide) (by decide) (by decide) v,
    hm.spares_write (by decide) (by decide) (by decide) v⟩

theorem completes_onPort {α : Type} {op : Block → Program (Except IoError α)} {r : Except IoError α}
    (hd : d.At config base) (h : bus.Completes (d.onPort port op) s t r s') :
    d.ports.resolve port = none ∧ t = [] ∧ r = .error .uninitialized ∨
      (d.ports.resolve port).isSome ∧ bus.Completes (op ⟨base, config.registers⟩) s t r s' := by
  unfold onPort at h
  split at h
  · rename_i hnone
    obtain ⟨rfl, rfl, rfl⟩ := Bus.completes_done_iff.1 h
    exact .inl ⟨hnone, rfl, rfl⟩
  · rename_i a ha
    obtain rfl := hd.2 a (List.mem_of_getElem? ha)
    rw [hd.block_eq] at h
    exact .inr ⟨by rw [ha]; rfl, h⟩

theorem textsFor_of_none {texts : List (List UInt8)} (h : d.ports.resolve port = none) :
    d.textsFor port texts = [] := by
  simp [textsFor, h]

theorem textsFor_of_isSome {texts : List (List UInt8)} (h : (d.ports.resolve port).isSome) :
    d.textsFor port texts = texts := by
  simp [textsFor, h]

theorem accounts_write {r : Except IoError Unit} {data : List UInt8} (hd : d.At config base)
    (hm : Bench.TellsApart config.registers)
    (h : bus.Completes (d.write fuel port data) s t r s') :
    Accounts ⟨base, config.registers⟩ (d.textsFor port [data]) t (· = r) := by
  rcases completes_onPort hd h with ⟨hnone, rfl, -⟩ | ⟨hsome, h⟩
  · rw [textsFor_of_none hnone]
    exact accounts_nil fun _ hc => absurd hc List.not_mem_nil
  · obtain ⟨attempts, hs, hc⟩ := carries_transmit hm h
    rw [textsFor_of_isSome hsome]
    exact ⟨r, attempts, hs, fun _ => rfl, hc⟩

/-- An empty text is not handed to the transmitter. -/
theorem textsFor_filter_nil : d.textsFor port ([[]].filter (· ≠ [])) = [] := by
  simp [textsFor]

theorem textsFor_filter {text : List UInt8} (h : text ≠ []) :
    d.textsFor port ([text].filter (· ≠ [])) = d.textsFor port [text] := by
  simp [h]

theorem accounts_writeBytes {r : Except IoError Nat} {data : List UInt8} (hd : d.At config base)
    (hm : Bench.TellsApart config.registers)
    (h : bus.Completes (d.writeBytes fuel port data) s t r s') :
    Accounts ⟨base, config.registers⟩ (d.textsFor port ([data].filter (· ≠ []))) t
      (· = r.map fun _ => ()) := by
  unfold writeBytes at h
  split at h
  · rename_i hempty
    obtain rfl := List.isEmpty_iff.1 hempty
    obtain ⟨rfl, rfl, rfl⟩ := Bus.completes_done_iff.1 h
    rw [textsFor_filter_nil]
    exact accounts_nil fun _ hc => absurd hc List.not_mem_nil
  · rename_i hne
    obtain ⟨r₁, s₁, t₁, t₂, hw, hn, rfl⟩ := Bus.completes_bind_iff.1 h
    rw [textsFor_filter fun e => hne (by rw [e]; rfl)]
    cases r₁ with
    | error e =>
      obtain ⟨rfl, rfl, rfl⟩ := Bus.completes_done_iff.1 hn
      rw [List.append_nil]
      exact accounts_write hd hm hw
    | ok _ =>
      obtain ⟨rfl, rfl, rfl⟩ := Bus.completes_done_iff.1 hn
      rw [List.append_nil]
      exact accounts_write hd hm hw

theorem accounts_writeAll {r : Except IoError Unit} {data : List UInt8} (hd : d.At config base)
    (hm : Bench.TellsApart config.registers)
    (h : bus.Completes (d.writeAll fuel port data) s t r s') :
    Accounts ⟨base, config.registers⟩ (d.textsFor port ([data].filter (· ≠ []))) t (· = r) := by
  unfold writeAll at h
  split at h
  · rename_i hempty
    obtain rfl := List.isEmpty_iff.1 hempty
    obtain ⟨rfl, rfl, rfl⟩ := Bus.completes_done_iff.1 h
    rw [textsFor_filter_nil]
    exact accounts_nil fun _ hc => absurd hc List.not_mem_nil
  · obtain ⟨r₁, s₁, t₁, t₂, hw, hn, rfl⟩ := Bus.completes_bind_iff.1 h
    cases r₁ with
    | error e =>
      obtain ⟨rfl, rfl, rfl⟩ := Bus.completes_done_iff.1 hn
      rw [List.append_nil]
      exact accounts_writeBytes hd hm hw
    | ok _ =>
      obtain ⟨rfl, rfl, rfl⟩ := Bus.completes_done_iff.1 hn
      rw [List.append_nil]
      exact accounts_writeBytes hd hm hw

/-- One piece: what its text is attempted as, on a registered port. -/
theorem sending_of_writeText {r : Except FormatError Unit} {text : List UInt8}
    (hd : d.At config base) (hm : Bench.TellsApart config.registers)
    (hport : (d.ports.resolve port).isSome)
    (h : bus.Completes (d.writeText fuel port text) s t r s') :
    ∃ r' attempts, Sending ([text].filter (· ≠ [])) r' attempts ∧ (r' = .ok () ↔ r = .ok ()) ∧
      Carries ⟨base, config.registers⟩ t attempts := by
  unfold writeText at h
  split at h
  · rename_i hempty
    obtain rfl := List.isEmpty_iff.1 hempty
    obtain ⟨rfl, rfl, rfl⟩ := Bus.completes_done_iff.1 h
    exact ⟨.ok (), [], .done, by simp, .nil⟩
  · rename_i hne
    have hfilter : [text].filter (· ≠ []) = [text] := by simpa using hne
    obtain ⟨r₁, s₁, t₁, t₂, hw, hn, rfl⟩ := Bus.completes_bind_iff.1 h
    obtain ⟨r', attempts, hs, hr, hc⟩ := accounts_write hd hm hw
    rw [textsFor_of_isSome hport] at hs hr
    obtain rfl := hr (List.cons_ne_nil _ _)
    rw [hfilter]
    cases r' with
    | error e =>
      obtain ⟨rfl, rfl, rfl⟩ := Bus.completes_done_iff.1 hn
      rw [List.append_nil]
      exact ⟨_, attempts, hs, by simp, hc⟩
    | ok _ =>
      obtain ⟨rfl, rfl, rfl⟩ := Bus.completes_done_iff.1 hn
      rw [List.append_nil]
      exact ⟨_, attempts, hs, by simp, hc⟩

theorem sending_of_writePieces {r : Except FormatError Unit} {pieces : List (List UInt8)}
    (hd : d.At config base) (hm : Bench.TellsApart config.registers)
    (hport : (d.ports.resolve port).isSome)
    (h : bus.Completes (d.writePieces fuel port pieces) s t r s') :
    ∃ r' attempts, Sending (pieces.filter (· ≠ [])) r' attempts ∧ (r' = .ok () ↔ r = .ok ()) ∧
      Carries ⟨base, config.registers⟩ t attempts := by
  induction pieces generalizing s t with
  | nil =>
    obtain ⟨rfl, rfl, rfl⟩ := Bus.completes_done_iff.1 h
    exact ⟨.ok (), [], .done, by simp, .nil⟩
  | cons piece rest ih =>
    obtain ⟨r₁, s₁, t₁, t₂, hp, hn, rfl⟩ := Bus.completes_bind_iff.1 h
    obtain ⟨r', attempts, hs, hr, hc⟩ := sending_of_writeText hd hm hport hp
    rw [← List.singleton_append, List.filter_append]
    cases r₁ with
    | error e =>
      obtain ⟨rfl, rfl, rfl⟩ := Bus.completes_done_iff.1 hn
      rw [List.append_nil]
      exact ⟨r', attempts, hs.append_of_error fun e => by simp [e] at hr, by simpa using hr, hc⟩
    | ok _ =>
      obtain rfl := hr.2 rfl
      obtain ⟨r₂, attempts₂, hs₂, hr₂, hc₂⟩ := ih hn
      exact ⟨r₂, attempts ++ attempts₂, hs.append hs₂, hr₂, hc.append hc₂⟩

/-- On a port that is not registered, no piece gets as far as the hardware. -/
theorem trace_of_writePieces_none {r : Except FormatError Unit} {pieces : List (List UInt8)}
    (hnone : d.ports.resolve port = none)
    (h : bus.Completes (d.writePieces fuel port pieces) s t r s') : t = [] := by
  induction pieces generalizing s t with
  | nil => exact (Bus.completes_done_iff.1 h).1
  | cons piece rest ih =>
    obtain ⟨r₁, s₁, t₁, t₂, hp, hn, rfl⟩ := Bus.completes_bind_iff.1 h
    unfold writeText at hp
    split at hp
    · obtain ⟨rfl, rfl, rfl⟩ := Bus.completes_done_iff.1 hp
      exact ih hn
    · rw [write, onPort, hnone] at hp
      obtain ⟨rfl, rfl, rfl⟩ := Bus.completes_done_iff.1 hp
      exact (Bus.completes_done_iff.1 hn).1

theorem accounts_writePieces {r : Except FormatError Unit} {pieces : List (List UInt8)}
    (hd : d.At config base) (hm : Bench.TellsApart config.registers)
    (h : bus.Completes (d.writePieces fuel port pieces) s t r s') :
    Accounts ⟨base, config.registers⟩ (d.textsFor port (pieces.filter (· ≠ []))) t
      (Reply.text r).Reports := by
  cases hport : d.ports.resolve port with
  | none =>
    obtain rfl := trace_of_writePieces_none hport h
    rw [textsFor_of_none hport]
    exact accounts_nil fun _ hc => absurd hc List.not_mem_nil
  | some a =>
    have hsome : (d.ports.resolve port).isSome := by rw [hport]; rfl
    obtain ⟨r', attempts, hs, hr, hc⟩ := sending_of_writePieces hd hm hsome h
    rw [textsFor_of_isSome hsome]
    exact ⟨r', attempts, hs, fun _ => reports_text_iff.2 hr, hc⟩

/-- A piece is a formatted text by itself. -/
theorem writePieces_singleton (text : List UInt8) :
    d.writePieces fuel port [text] = d.writeText fuel port text := by
  have hlast : ∀ f : Except FormatError Unit → Program (Except FormatError Unit),
      (∀ r, f r = .done r) →
        (d.writeText fuel port text).bind f = d.writeText fuel port text := by
    intro f hf
    rw [funext hf, Program.bind_done]
  exact hlast _ fun r => by cases r <;> rfl

theorem accounts_writeText {r : Except FormatError Unit} {text : List UInt8}
    (hd : d.At config base) (hm : Bench.TellsApart config.registers)
    (h : bus.Completes (d.writeText fuel port text) s t r s') :
    Accounts ⟨base, config.registers⟩ (d.textsFor port ([text].filter (· ≠ []))) t
      (Reply.text r).Reports :=
  accounts_writePieces hd hm (writePieces_singleton (d := d) text ▸ h)

/-! ### Bringing up a port -/

theorem spares_wrapper {b : Block} (hm : Bench.TellsApart b.map) {w : Address}
    (hw : Bench.window ≤ w - b.base) (v : UInt32) : b.Spares (.write (w + Gsbi.control) v) := by
  have hne : ∀ q, w + Gsbi.control ≠ b.location q := by
    intro q h
    have h0 : w + Gsbi.control = w := UInt64.add_zero w
    rw [h0] at h
    subst h
    rw [Block.location, UInt64.add_comm, UInt64.add_sub_cancel] at hw
    exact absurd (hm.inside q) (UInt64.not_lt.2 hw)
  refine ⟨fun u h => hne _ (Action.write.inj h).1, fun u h => hne _ (Action.write.inj h).1, ?_⟩
  intro h
  cases h

theorem accounts_init {board : Board} {number : UInt8} {wrapper : Option Address}
    {result : Except InitError PortId} (hd : d.At config base)
    (hm : Bench.TellsApart config.registers)
    (hw : ∀ w ∈ wrapper, Bench.window ≤ w - base)
    (h : bus.Completes (d.init fuel board number wrapper base) s t (result, d') s') :
    d'.At config base ∧
      Accounts ⟨base, config.registers⟩ (if d.Accepts base then config.banner.toList else []) t
        (Reply.port result).Reports := by
  by_cases ha : d.Accepts base
  · obtain ⟨s₁, t₁, t₂, r, hp, hb, rfl, hc, hend⟩ := completes_init ha h
    rw [hd.block_eq, hd.1] at hp hb
    have hprepared : Carries ⟨base, config.registers⟩ t₁ [] :=
      .of_spares (hp.meets (meets_prepare ⟨nofun, nofun, nofun⟩ ⟨nofun, nofun, nofun⟩
        ⟨nofun, nofun, nofun⟩ (fun w hmem => spares_wrapper hm (hw w hmem) _)
        (fun q hq v => hm.spares_write (by revert q; decide) (by revert q; decide)
          (by revert q; decide) v)
        (fun c _ => hm.spares_write (by decide) (by decide) (by decide) c))).2
    refine ⟨⟨hc.trans hd.1, ?_⟩, ?_⟩
    · rcases hend with ⟨e, -, -, rfl⟩ | ⟨-, ⟨-, rfl, -⟩ | ⟨id, -, hopens⟩⟩
      · exact hd.2
      · exact hd.2
      · rw [hopens.gains.bases]
        intro a hmem
        rcases List.mem_append.1 hmem with hmem | hmem
        · exact hd.2 a hmem
        · exact List.mem_singleton.1 hmem
    · have hreports : (Reply.port result).Reports r := by
        rcases hend with ⟨e, rfl, rfl, -⟩ | ⟨rfl, ⟨rfl, -⟩ | ⟨id, rfl, -⟩⟩ <;> rfl
      rw [if_pos ha]
      unfold sendBanner at hb
      cases hbanner : config.banner with
      | none =>
        rw [hbanner] at hb
        obtain ⟨rfl, rfl, rfl⟩ := Bus.completes_done_iff.1 hb
        rw [List.append_nil]
        exact ⟨.ok (), [], .done, fun _ => hreports, hprepared⟩
      | some text =>
        rw [hbanner] at hb
        obtain ⟨attempts, hs, hcarries⟩ := carries_transmit hm hb
        exact ⟨r, attempts, hs, fun _ => hreports, hprepared.append hcarries⟩
  · obtain ⟨e, -, hinit⟩ := init_of_not_accepted ha
    rw [hinit] at h
    obtain ⟨rfl, hr, rfl⟩ := Bus.completes_done_iff.1 h
    obtain ⟨rfl, rfl⟩ := Prod.mk.inj hr
    rw [if_neg ha]
    exact ⟨hd, accounts_nil fun _ hc => absurd hc List.not_mem_nil⟩

end Driver

/-! ### Any call -/

/-- An initialization is one of the block at a base, and its wrapper, if there is one, lies outside
the window of the block. -/
def Call.KeepsTo (base : Address) : Call → Prop
  | .init _ _ wrapper a => a = base ∧ ∀ w ∈ wrapper, Bench.window ≤ w - base
  | _ => True

section Calls

variable {d d' : Driver slots} {config : Config} {base : Address} {fuel : Nat} {reply : Reply}

/-- What a call that does not send does on the bus spares the transmitter. -/
theorem accounts_of_meets {p : Program (Reply × Driver slots)} (hd : d.At config base)
    (h : bus.Completes p s t (reply, d') s')
    (hp : p.Meets (Block.Spares ⟨base, config.registers⟩) fun r => d.SameSetup r.2) :
    d'.At config base ∧ Accounts ⟨base, config.registers⟩ [] t reply.Reports := by
  obtain ⟨hsame, hspares⟩ := h.meets hp
  exact ⟨hd.sameSetup hsame, accounts_nil hspares⟩

/-- **Every call answers for what it puts on the wire**, and leaves a driver whose ports are all
at the base. -/
theorem accounts_call {c : Call} (hd : d.At config base)
    (hm : Bench.TellsApart config.registers) (hc : c.KeepsTo base)
    (h : bus.Completes (c.program fuel d) s t (reply, d') s') :
    d'.At config base ∧ Accounts ⟨base, config.registers⟩ (c.texts d) t reply.Reports := by
  obtain rfl := hd.1
  have hallows := hd.allows hm
  cases c with
  | init board number wrapper a =>
    obtain ⟨rfl, hw⟩ := hc
    obtain ⟨⟨result, d₁⟩, h₁, hr⟩ := Bus.completes_bind_done_iff.1 h
    obtain ⟨rfl, rfl⟩ := Prod.mk.inj hr
    exact Driver.accounts_init hd hm hw h₁
  | putChar port byte | write port data =>
    obtain ⟨r, h₁, hr⟩ := Bus.completes_bind_done_iff.1 h
    obtain ⟨rfl, rfl⟩ := Prod.mk.inj hr
    exact ⟨hd, (Driver.accounts_write hd hm h₁).mono fun _ hr => hr⟩
  | writeBytes port data =>
    obtain ⟨r, h₁, hr⟩ := Bus.completes_bind_done_iff.1 h
    obtain ⟨rfl, rfl⟩ := Prod.mk.inj hr
    exact ⟨hd, Driver.accounts_writeBytes hd hm h₁⟩
  | writeAll port data =>
    obtain ⟨r, h₁, hr⟩ := Bus.completes_bind_done_iff.1 h
    obtain ⟨rfl, rfl⟩ := Prod.mk.inj hr
    exact ⟨hd, Driver.accounts_writeAll hd hm h₁⟩
  | writeText port text =>
    obtain ⟨r, h₁, hr⟩ := Bus.completes_bind_done_iff.1 h
    obtain ⟨rfl, rfl⟩ := Prod.mk.inj hr
    exact ⟨hd, Driver.accounts_writeText hd hm h₁⟩
  | writePieces port pieces =>
    obtain ⟨r, h₁, hr⟩ := Bus.completes_bind_done_iff.1 h
    obtain ⟨rfl, rfl⟩ := Prod.mk.inj hr
    exact ⟨hd, Driver.accounts_writePieces hd hm h₁⟩
  | flush port =>
    have hflush : (d.flush fuel port).Meets (Block.Spares ⟨base, d.config.registers⟩)
        fun _ => True := by
      unfold Driver.flush Driver.onPort
      split
      · trivial
      · exact Block.meets_waitFor ⟨nofun, nofun, nofun⟩
    exact accounts_of_meets hd h (hflush.bind fun _ _ => Driver.SameSetup.refl d)
  | borrow port =>
    have hborrow : (d.onPort port fun _ => return .ok ()).Meets
        (Block.Spares ⟨base, d.config.registers⟩) fun _ => True := by
      unfold Driver.onPort
      split <;> trivial
    exact accounts_of_meets hd h (hborrow.bind fun _ _ => Driver.SameSetup.refl d)
  | getChar port wait =>
    exact accounts_of_meets hd h ((Driver.meets_getChar hallows).bind fun _ h => h)
  | drain port max =>
    exact accounts_of_meets hd h ((Driver.meets_drain hallows max).bind fun _ h => h)
  | readBytes port room =>
    exact accounts_of_meets hd h ((Driver.meets_readBytes hallows room).bind fun _ h => h)
  | readExact port room =>
    exact accounts_of_meets hd h ((Driver.meets_fillFrom hallows room room).bind fun _ h => h)

end Calls

/-! ### A whole history -/

section Histories

variable {config : Config} {base : Address} {schedule : Schedule Bench.Control}
  {entries : List (Entry slots Bench.Control)} {x x' : Session (Rig Bench) slots}

/-- What a history adds to the record of the transfers is what its attempts put on the wire. -/
theorem transfers_of_history (hm : Bench.TellsApart config.registers)
    (hcalls : ∀ e ∈ entries, e.Calls (Call.KeepsTo base))
    (h : History (Bench.hardware.rigged schedule) Bench.hardware.operate x entries x')
    (hd : x.driver.At config base) (hserves : x.bus.device.Serves ⟨base, config.registers⟩) :
    ∃ (attempts : List (List Attempt)) (new : List Transfer),
      List.Forall₂ Entry.Explained entries attempts ∧
        x'.bus.device.transfersBack = new.reverse ++ x.bus.device.transfersBack ∧
        new.flatMap Transfer.bytes = attempts.flatten.flatMap Attempt.wire ∧
        new.map (·.chars.toNat) = attempts.flatten.flatMap Attempt.announced := by
  induction h with
  | nil => exact ⟨[], [], .nil, rfl, rfl, rfl⟩
  | @call x x₁ x' _ c reply t rest hperform _ ih =>
    have hrun := Session.perform_eq_ok_iff.1 hperform
    obtain ⟨hd₁, r, attempts, hs, hr, hcarries⟩ :=
      accounts_call hd hm (hcalls _ List.mem_cons_self) hrun
    obtain ⟨hserves₁, hrecord⟩ := Bench.transfers_of_completes hserves hm hrun
    obtain ⟨later, new', hlater, hnew', hwire', hcount'⟩ :=
      ih (fun e he => hcalls e (List.mem_cons_of_mem _ he)) hd₁ hserves₁
    obtain ⟨new, hnew, hwire, hcount⟩ := hcarries.record
    refine ⟨attempts :: later, new ++ new', .cons (.call hs hr hcarries.entered) hlater,
      ?_, ?_, ?_⟩
    · rw [hnew', hrecord, hnew, List.reverse_append, List.append_assoc]
    · rw [List.flatMap_append, hwire, hwire', List.flatten_cons, List.flatMap_append]
    · rw [List.map_append, hcount, hcount', List.flatten_cons, List.flatMap_append]
  | @control x x' k y rest hoperate _ ih =>
    obtain ⟨hf, -⟩ := Bench.follows_of_operate hoperate
    obtain ⟨later, new, hlater, hnew, hwire, hcount⟩ :=
      ih (fun e he => hcalls e (List.mem_cons_of_mem _ he)) hd (hf.serves hserves)
    exact ⟨[] :: later, new, .cons .control hlater, by rw [hnew, hf.transfersBack], hwire, hcount⟩

/-- When every entry sends all its texts, the wire carries their expansion. -/
theorem wire_of_succeeds {attempts : List (List Attempt)}
    (h : List.Forall₂ Entry.Explained entries attempts) (hs : ∀ e ∈ entries, e.Succeeds) :
    attempts.flatten.flatMap Attempt.wire = expand (entries.flatMap Entry.texts).flatten := by
  induction h with
  | nil => rfl
  | cons he _ ih =>
    rw [List.flatten_cons, List.flatMap_append, List.flatMap_cons, List.flatten_append,
      expand_append, he.wire_of_succeeds (hs _ List.mem_cons_self),
      ih fun e hmem => hs e (List.mem_cons_of_mem _ hmem)]

/-- **What a session puts on the wire.** A driver and a bench block of its layout start afresh, and
all ports are brought up at the base of the block. Then after any history, whatever the operator
does between the calls or in the middle of one, the wire carries one piece for each attempted
transfer, in order, and the announced counts are those of the transfers that were announced. If
everything was sent, the wire carries the expansion of everything. -/
theorem wire_of_history (hmap : config.registers = .blsp ∨ config.registers = .gsbi)
    (hcalls : ∀ e ∈ entries, e.Calls (Call.KeepsTo base))
    (h : History (Bench.hardware.rigged schedule) Bench.hardware.operate
      ⟨.new config, .start (.new base config.registers)⟩ entries x') :
    ∃ attempts : List (List Attempt), List.Forall₂ Entry.Explained entries attempts ∧
      x'.bus.device.txBytes = attempts.flatten.flatMap Attempt.wire ∧
      x'.bus.device.txCounts.map (·.toNat) = attempts.flatten.flatMap Attempt.announced ∧
      ((∀ e ∈ entries, e.Succeeds) →
        x'.bus.device.txBytes = expand (entries.flatMap Entry.texts).flatten) := by
  have hm := Bench.tellsApart_of_known hmap
  obtain ⟨attempts, new, hexplained, hnew, hwire, hcount⟩ := transfers_of_history hm hcalls h
    ⟨rfl, fun a ha => absurd ha List.not_mem_nil⟩ ⟨rfl, rfl⟩
  have htransfers : x'.bus.device.transfers = new := by
    rw [Bench.transfers, hnew]
    exact (congrArg List.reverse (List.append_nil _)).trans (List.reverse_reverse new)
  have hbytes : x'.bus.device.txBytes = attempts.flatten.flatMap Attempt.wire := by
    rw [Bench.txBytes, htransfers, hwire]
  refine ⟨attempts, hexplained, hbytes, ?_, fun hs => ?_⟩
  · rw [Bench.txCounts, htransfers, ← hcount, List.map_map]
    rfl
  · rw [hbytes, wire_of_succeeds hexplained hs]

/-- A banner; a text that stalls in the middle, because the block stalls while it is sent; a text
that finds the transmitter still busy; and a line feed that is sent at last. -/
theorem wire_of_history_interrupted :
    ∃ (entries : List (Entry 4 Bench.Control)) (x' : Session (Rig Bench) 4),
      History (Bench.hardware.rigged ⟨[(.read 4, .stallAfter 1)], 1000⟩) Bench.hardware.operate
        ⟨.new { Config.standard with
            registers := .gsbi, banner := some [0x68, 0x0a], poll := .budget 2 },
          .start (.new 0x1000 .gsbi)⟩ entries x' ∧
      (∀ e ∈ entries, e.Calls (Call.KeepsTo 0x1000)) ∧
      ∃ attempts : List (List Attempt), List.Forall₂ Entry.Explained entries attempts ∧
        attempts.flatten.flatMap Attempt.wire =
          [0x68, 0x0d, 0x0a, 0x61, 0x62, 0x63, 0x64, 0x0d, 0x0a] ∧
        attempts.flatten.flatMap Attempt.announced = [3, 5, 2] := by
  let moves : List (Move Bench.Control) :=
    [.call 0 (.init .hooks 7 (some 0x2000) 0x1000), .call 0 (.write ⟨0⟩ [0x61, 0x62, 0x63, 0x64, 0x65]),
      .control (.busyInterruptPolls 3), .call 0 (.writeText ⟨0⟩ [0x78]), .call 0 (.putChar ⟨0⟩ 0x0a)]
  have hmoves : ∀ m ∈ moves, m.Calls (Call.KeepsTo 0x1000) := by
    simp [moves, Move.Calls, Call.KeepsTo]
    decide
  have hrun : (Session.replay (Bench.hardware.rigged ⟨[(.read 4, .stallAfter 1)], 1000⟩)
      Bench.hardware.operate moves (⟨.new { Config.standard with
            registers := .gsbi, banner := some [0x68, 0x0a], poll := .budget 2 },
          .start (.new 0x1000 .gsbi)⟩ : Session (Rig Bench) 4)).map
        (fun r => (r.2.bus.device.txBytes, r.2.bus.device.txCounts.map (·.toNat))) =
      some ([0x68, 0x0d, 0x0a, 0x61, 0x62, 0x63, 0x64, 0x0d, 0x0a], [3, 5, 2]) := by
    decide +kernel
  obtain ⟨⟨entries, x'⟩, hreplay, hwire⟩ := Option.map_eq_some_iff.1 hrun
  obtain ⟨hbytes, hcounts⟩ := Prod.mk.inj hwire
  obtain ⟨hhistory, hcalls⟩ := history_of_replay hreplay
  obtain ⟨attempts, hexplained, hw, hc, -⟩ :=
    wire_of_history (.inr rfl) (hcalls _ hmoves) hhistory
  exact ⟨entries, x', hhistory, hcalls _ hmoves, attempts, hexplained, hw ▸ hbytes, hc ▸ hcounts⟩

end Histories

end PolledUart
