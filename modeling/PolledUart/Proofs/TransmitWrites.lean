import PolledUart.Proofs.TransmitTrace
import PolledUart.Sim.Bench

/-!
# What a transfer writes

The count register is told a number computed from the text; the words come from
the expanded stream, four characters at a time. On whatever bus, a transfer that
ends has written the count, the words that carry exactly that many characters,
and nothing else, up to the point where a wait was given up
(`Transmit.transmit_writes`).
-/

namespace PolledUart

/-- The write that puts a word into the FIFO. -/
def Block.dataWrite (b : Block) (w : FifoWord) : Address × UInt32 := (b.location .tf, w.raw)

namespace Transmit

open Newline

/-- The writes that announce a number of characters. -/
def header (b : Block) (count : UInt32) : List (Address × UInt32) :=
  [(b.location .noCharsForTx, count), (b.location .cr, Command.resetTxReady)]

variable {b : Block} {count : UInt32} {words : List FifoWord} {t : List Event}
  {r : Except IoError Unit}

theorem Idles.writes_eq (h : Idles b t r) : Trace.writes t = [] := by
  cases h with
  | empty _ => rfl
  | polled _ h => exact h.writes_eq

theorem Idles.error_eq {e : IoError} (h : Idles b t (.error e)) : e = .timeout := by
  cases h with
  | polled _ h => exact h.error_eq

/-- All words are written in order, or some first words and then the reset. -/
theorem Sends.writes_eq (h : Sends b words t r) :
    r = .ok () ∧ Trace.writes t = words.map b.dataWrite ∨
    r = .error .timeout ∧ ∃ k < words.length,
      Trace.writes t = (words.take k).map b.dataWrite ++ [(b.location .cr, Command.resetTx)] := by
  induction h with
  | done => exact .inl ⟨rfl, rfl⟩
  | @word w rest t u r hpoll _ ih =>
    have hw : Trace.writes (t ++ b.writeEvent .tf w.raw :: u) = b.dataWrite w :: Trace.writes u := by
      rw [Trace.writes_append, hpoll.writes_eq]
      rfl
    rcases ih with ⟨rfl, hu⟩ | ⟨rfl, k, hk, hu⟩
    · exact .inl ⟨rfl, by rw [hw, hu, List.map_cons]⟩
    · refine .inr ⟨rfl, k + 1, Nat.succ_lt_succ hk, ?_⟩
      rw [hw, hu, List.take_succ_cons, List.map_cons, List.cons_append]
  | @abandoned w rest t e hpoll =>
    obtain rfl := hpoll.error_eq
    refine .inr ⟨rfl, 0, Nat.zero_lt_succ _, ?_⟩
    rw [Trace.writes_append, hpoll.writes_eq]
    rfl

theorem writes_announced (b : Block) (count : UInt32) (u : List Event) :
    Trace.writes (announced b count u) = header b count ++ Trace.writes u := by
  show header b count ++ Trace.writes (u ++ [.act .leave]) = header b count ++ Trace.writes u
  rw [Trace.writes_append]
  exact congrArg _ (List.append_nil _)

/-- The three ways a transfer can go, by its writes. -/
theorem Transmits.writes_eq (h : Transmits b count words t r) :
    r = .ok () ∧ Trace.writes t = header b count ++ words.map b.dataWrite ∨
    r = .error .timeout ∧ Trace.writes t = [] ∨
    r = .error .timeout ∧ ∃ k < words.length, Trace.writes t =
      header b count ++ (words.take k).map b.dataWrite ++
        [(b.location .cr, Command.resetTx)] := by
  cases h with
  | blocked hi =>
    obtain rfl := hi.error_eq
    exact .inr (.inl ⟨rfl, hi.writes_eq⟩)
  | @started t u _ hi hs =>
    have hw : Trace.writes (t ++ announced b count u) = header b count ++ Trace.writes u := by
      rw [Trace.writes_append, hi.writes_eq, writes_announced, List.nil_append]
    rcases hs.writes_eq with ⟨rfl, hu⟩ | ⟨rfl, k, hk, hu⟩
    · exact .inl ⟨rfl, by rw [hw, hu]⟩
    · exact .inr (.inr ⟨rfl, k, hk, by rw [hw, hu, List.append_assoc]⟩)

/-- **What a transfer writes.** The count is the number of physical characters, the words are as
few as can carry them, and their lanes are the expanded text and then zeros. A transfer that
succeeds writes all of that; one that times out writes nothing, or the announcement, some of the
first words and the reset. -/
theorem transmit_writes {σ : Type} {bus : Bus σ} {policy : PollPolicy} {fuel : Nat}
    {data : List UInt8} {s s' : σ} (hne : data ≠ []) (hfit : physicalLength data < 0x100000000)
    (h : bus.run (transmit b policy fuel data) s = ⟨.ok r s', t⟩) :
    ∃ (count : UInt32) (ws : List FifoWord),
      count.toNat = physicalLength data ∧
      ws.length = (wordsFor (UInt64.ofNat (physicalLength data))).toNat ∧
      ws.flatMap FifoWord.lanes =
        expand data ++ List.replicate (4 * ws.length - physicalLength data) 0 ∧
      (r = .ok () ∧ Trace.writes t = header b count ++ ws.map b.dataWrite ∨
        r = .error .timeout ∧ Trace.writes t = [] ∨
        r = .error .timeout ∧ ∃ k < ws.length, Trace.writes t =
          header b count ++ (ws.take k).map b.dataWrite ++
            [(b.location .cr, Command.resetTx)]) := by
  obtain ⟨count, hc, hcount⟩ := count?_of_lt hfit
  have hwords : (words data).length = (wordsFor (UInt64.ofNat (physicalLength data))).toNat := by
    rw [length_words, toNat_wordsFor, UInt64.toNat_ofNat', Nat.mod_eq_of_lt (by omega)]
  exact ⟨count, words data, hcount, hwords, lanes_words data,
    (transmits_of_completes hne hc (Bus.completes_iff.2 h)).writes_eq⟩

/-- A line feed whose pair straddles two words, on a transmitter that stalls after the first. -/
theorem transmit_writes_straddling :
    ∃ s' t, Sim.Bench.bus.run
        (transmit ⟨0x1000, .blsp⟩ (.budget 2) 0 [0x61, 0x62, 0x63, 0x0a, 0x64])
        { Sim.Bench.new 0x1000 .blsp with stallAt := some 1 } = ⟨.ok (.error .timeout) s', t⟩ ∧
      ∃ (count : UInt32) (ws : List FifoWord), count.toNat = 6 ∧ ws.length = 2 ∧
        ws.flatMap FifoWord.lanes = [0x61, 0x62, 0x63, 0x0d, 0x0a, 0x64, 0, 0] ∧
        ∃ k < 2, Trace.writes t =
          header ⟨0x1000, .blsp⟩ count ++ (ws.take k).map (Block.dataWrite ⟨0x1000, .blsp⟩) ++
            [(0x10a8, Command.resetTx)] := by
  refine ⟨_, _, rfl, ?_⟩
  obtain ⟨count, ws, hcount, hlen, hlanes, h | h | h⟩ := transmit_writes (by decide) (by decide)
    (rfl : Sim.Bench.bus.run
      (transmit ⟨0x1000, .blsp⟩ (.budget 2) 0 [0x61, 0x62, 0x63, 0x0a, 0x64])
      { Sim.Bench.new 0x1000 .blsp with stallAt := some 1 } = _)
  · exact absurd h.1 nofun
  · exact absurd h.2 (by decide)
  · have hlen : ws.length = 2 := hlen
    rw [hlen] at hlanes h
    exact ⟨count, ws, hcount, hlen, hlanes, h.2⟩

end Transmit

end PolledUart
