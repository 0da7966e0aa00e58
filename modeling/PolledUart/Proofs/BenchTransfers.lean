import PolledUart.Proofs.BenchSteps
import PolledUart.Proofs.BringUp
import PolledUart.Proofs.TransmitWrites

/-!
# The record of transfers

A bench block attributes every word to the latest announced transfer. So its record
of transfers is a fold over the writes it saw (`Bench.record`), whatever was read in
between and whatever its operator did, and what a piece of a session adds to the
record can be read off its trace.

* `Bench.transfers_of_completes` — the record after a completed run.
* `Bench.record_words` — an announcement and some words open one transfer with just
  these words.
* `Bench.record_of_spares` — a trace that spares the transmitter adds nothing.
-/

namespace PolledUart

/-- The action does not address the transmitter: it writes neither the count nor a word, and opens
no critical section. -/
def Block.Spares (b : Block) (c : Action) : Prop :=
  (∀ v, c ≠ .write (b.location .tf) v) ∧ (∀ v, c ≠ .write (b.location .noCharsForTx) v) ∧ c ≠ .enter

namespace Sim.Bench

variable {b : Block} {d : Bench}

/-- What a write does to the transfers of a block, latest first. -/
def record (b : Block) (ts : List Transfer) (w : Address × UInt32) : List Transfer :=
  if w.1 = b.location .tf then
    match ts with
    | [] => [⟨0, #[⟨w.2⟩]⟩]
    | t :: rest => { t with words := t.words.push ⟨w.2⟩ } :: rest
  else if w.1 = b.location .noCharsForTx then ⟨w.2, #[]⟩ :: ts
  else ts

/-- What an event does to the transfers of a block: only a write changes them. -/
def recordEvent (b : Block) (ts : List Transfer) (e : Event) : List Transfer :=
  match e.write? with
  | some w => record b ts w
  | none => ts

theorem foldl_recordEvent (t : List Event) (ts : List Transfer) :
    t.foldl (recordEvent b) ts = (Trace.writes t).foldl (record b) ts := by
  induction t generalizing ts with
  | nil => rfl
  | cons e t ih =>
    rw [List.foldl_cons, ih, recordEvent, Trace.writes, Trace.writes, List.filterMap_cons]
    cases e.write? <;> rfl

/-! ### One write -/

/-- An address in the window of the block is that of a register exactly at its offset. -/
theorem Serves.sub_eq_offset_iff (hd : d.Serves b) {a : Address} (q : Register) :
    a - d.base = d.map.offset q ↔ a = b.location q := by
  constructor
  · intro h
    rw [← hd.offset q] at h
    exact (UInt64.sub_left_inj _).1 h
  · rintro rfl
    exact hd.offset q

theorem takeWord_transfersBack (w : FifoWord) :
    (d.takeWord w).transfersBack =
      match d.transfersBack with
      | [] => [⟨0, #[w]⟩]
      | t :: rest => { t with words := t.words.push w } :: rest := by
  cases h : d.transfersBack <;> simp [takeWord, h]

theorem obey_transfersBack (code : UInt32) : (d.obey code).transfersBack = d.transfersBack := by
  unfold obey
  dsimp only
  repeat' split
  all_goals rfl

theorem store_transfersBack (offset : UInt64) (v : UInt32) :
    (d.store offset v).transfersBack =
      if offset = d.map.noCharsForTx then ⟨v, #[]⟩ :: d.transfersBack else d.transfersBack := by
  unfold store
  dsimp only
  split <;> rfl

theorem Serves.write_transfersBack (hd : d.Serves b) (hm : TellsApart b.map) (a : Address)
    (v : UInt32) : (d.write a v).transfersBack = record b d.transfersBack (a, v) := by
  have htf : a - d.base = d.map.tf ↔ a = b.location .tf := hd.sub_eq_offset_iff .tf
  have hcr : a - d.base = d.map.cr ↔ a = b.location .cr := hd.sub_eq_offset_iff .cr
  have hcount : a - d.base = d.map.noCharsForTx ↔ a = b.location .noCharsForTx :=
    hd.sub_eq_offset_iff .noCharsForTx
  have hin : ∀ q, a = b.location q → a - d.base < window := by
    rintro q rfl
    rw [hd.offset, hd.2]
    exact hm.inside q
  unfold Bench.write record
  dsimp only
  by_cases hwindow : a - d.base < window
  · rw [if_pos hwindow]
    unfold writeAt
    simp only [htf, hcr]
    split
    · exact takeWord_transfersBack _
    · split
      · -- a command is no count: the two registers differ
        rename_i h
        have hne : b.location .cr ≠ b.location .noCharsForTx := fun e =>
          hm.writes .noCharsForTx (by simp) .cr (by decide) (by decide) (Block.location_inj.1 e)
        rw [if_neg (h ▸ hne)]
        exact obey_transfersBack v
      · rw [store_transfersBack]
        simp only [hcount]
  · rw [if_neg hwindow, if_neg fun h => hwindow (hin _ h), if_neg fun h => hwindow (hin _ h)]

theorem read_transfersBack (a : Address) : (d.read a).2.transfersBack = d.transfersBack := by
  unfold Bench.read readAt readStatus readInterruptStatus readData popWord
  dsimp only
  repeat' split
  all_goals rfl

/-! ### A whole run -/

section Runs

variable {α : Type} {schedule : Schedule Control} {r r' : Rig Bench} {t : List Event} {a : α}

/-- **The record of transfers is a fold over the writes.** Neither reads nor controls have a part
in it. -/
theorem transfers_of_completes {p : Program α} (hd : r.device.Serves b) (hm : TellsApart b.map)
    (h : (hardware.rigged schedule).Completes p r t a r') :
    r'.device.Serves b ∧
      r'.device.transfersBack = (Trace.writes t).foldl (record b) r.device.transfersBack := by
  have hstep : ∀ {x : Rig Bench} {e : Event} {y : Rig Bench}, x.device.Serves b →
      (hardware.rigged schedule).Step x e y →
      y.device.Serves b ∧ y.device.transfersBack = recordEvent b x.device.transfersBack e := by
    intro x e y hx hs
    cases e with
    | read address v =>
      obtain ⟨device, hf, hread, -⟩ := step_read hs
      have hserves := (hf.serves hx).read address
      have hrecord := read_transfersBack (d := device) address
      rw [hread] at hserves hrecord
      exact ⟨hserves, hrecord.trans hf.transfersBack⟩
    | act c =>
      by_cases hc : ∃ address v, c = .write address v
      · obtain ⟨address, v, rfl⟩ := hc
        rw [(step_write hs).1]
        exact ⟨hx.write address v, hx.write_transfersBack hm address v⟩
      · obtain ⟨arrived, hf, -⟩ := step_aside (fun address v e => hc ⟨address, v, e⟩) hs
        refine ⟨hf.serves hx, hf.transfersBack.trans ?_⟩
        cases c with
        | write address v => exact absurd ⟨address, v, rfl⟩ hc
        | _ => rfl
  obtain ⟨hd', hpath⟩ := Bus.Path.map (fun x : Rig Bench => x.device.Serves b)
    (fun x => x.device.transfersBack) (fun ts e ts' => ts' = recordEvent b ts e) hstep hd h.path
  exact ⟨hd', (Bus.path_fold_iff.1 hpath).trans (foldl_recordEvent t _)⟩

end Runs

/-! ### Pieces of a trace -/

theorem record_words (words : List FifoWord) (count : UInt32) (acc : List FifoWord)
    (ts : List Transfer) :
    (words.map b.dataWrite).foldl (record b) (⟨count, acc.toArray⟩ :: ts) =
      ⟨count, (acc ++ words).toArray⟩ :: ts := by
  induction words generalizing acc with
  | nil => rw [List.append_nil]; rfl
  | cons w rest ih =>
    rw [List.map_cons, List.foldl_cons]
    have hw : record b (⟨count, acc.toArray⟩ :: ts) (b.dataWrite w) =
        ⟨count, (acc ++ [w]).toArray⟩ :: ts := by
      simp [record, Block.dataWrite]
    rw [hw, ih, List.append_assoc]
    rfl

theorem record_command (hm : TellsApart b.map) (code : UInt32) (ts : List Transfer) :
    record b ts (b.location .cr, code) = ts := by
  have htf : b.location .cr ≠ b.location .tf := fun e =>
    hm.writes .tf (by simp) .cr (by decide) (by decide) (Block.location_inj.1 e)
  have hcount : b.location .cr ≠ b.location .noCharsForTx := fun e =>
    hm.writes .noCharsForTx (by simp) .cr (by decide) (by decide) (Block.location_inj.1 e)
  simp [record, htf, hcount]

/-- An announcement opens a transfer without words. -/
theorem record_header (hm : TellsApart b.map) (count : UInt32) (ts : List Transfer) :
    (Transmit.header b count).foldl (record b) ts = ⟨count, #[]⟩ :: ts := by
  have hne : b.location .noCharsForTx ≠ b.location .tf := fun e =>
    hm.writes .tf (by simp) .noCharsForTx (by decide) (by decide) (Block.location_inj.1 e)
  simp only [Transmit.header, List.foldl_cons, List.foldl_nil, record_command hm]
  simp [record, hne]

/-- A write to a register that is neither the count nor the data register spares the
transmitter. -/
theorem TellsApart.spares_write (hm : TellsApart b.map) {q : Register}
    (hq : q ∈ Register.written) (htf : q ≠ .tf) (hcount : q ≠ .noCharsForTx) (v : UInt32) :
    b.Spares (.write (b.location q) v) := by
  have h₁ := hm.writes .tf (by simp) q hq htf
  have h₂ := hm.writes .noCharsForTx (by simp) q hq hcount
  refine ⟨fun w h => h₁ ?_, fun w h => h₂ ?_, nofun⟩ <;>
    exact Block.location_inj.1 (Action.write.inj h).1

/-- A trace that spares the transmitter adds nothing to the record. -/
theorem record_of_spares {t : List Event} (h : ∀ c, .act c ∈ t → b.Spares c)
    (ts : List Transfer) : (Trace.writes t).foldl (record b) ts = ts := by
  induction t generalizing ts with
  | nil => rfl
  | cons e t ih =>
    have ht := ih fun c hc => h c (List.mem_cons_of_mem _ hc)
    cases e with
    | read a v => exact ht ts
    | act c =>
      cases c with
      | write a v =>
        obtain ⟨htf, hcount, -⟩ := h _ List.mem_cons_self
        have htf : a ≠ b.location .tf := fun e => htf v (e ▸ rfl)
        have hcount : a ≠ b.location .noCharsForTx := fun e => hcount v (e ▸ rfl)
        rw [Trace.writes_write, List.foldl_cons, record.eq_def, if_neg htf, if_neg hcount]
        exact ht ts
      | _ => exact ht ts

end Sim.Bench

end PolledUart
