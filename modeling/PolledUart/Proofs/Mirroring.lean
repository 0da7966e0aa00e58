import PolledUart.Proofs.Answers
import PolledUart.Proofs.BenchSteps
import PolledUart.Proofs.Requests
import Mathlib.Data.List.Forall2

/-!
# Two programs side by side

The same operation may be asked for in two settings: with another register layout, with more
patience, with other things in the memory of the driver. The two programs then make the same
requests up to a relation of requests, and as long as these are answered alike, they go on
side by side to ends that belong together. `Program.Mirrors Q T L R` says so of two programs,
with one rule for each form of a program; like `Program.Asks` it is proved along the programs.

The first program may drop out, if `T` allows for it: once it can only end without a value or
with one of `L`, nothing is asked of the second any more.

* `Program.Mirrors.bind` — one after the other.
* `Program.Mirrors.follow` — a trace that the first program ends with is mirrored by one that
  the second ends with.
* `Transmit.mirrors_transmit`, `Receive.mirrors_fetchWaiting` — sending and receiving on two
  blocks whose registers correspond (`Block.Twin`), with waits that correspond
  (`PollPolicy.Pace`).
-/

namespace PolledUart

variable {α β γ δ : Type} {Q : Request → Request → Prop} {T : Prop}

namespace Program

/-- However its reads are answered, the program ends without a value or with one of `L`; and that
is allowed for. -/
def Lapses (T : Prop) (L : α → Prop) : Program α → Prop
  | .done a => T ∧ L a
  | .fault => T
  | .limit => T
  | .read _ next => ∀ v, Lapses T L (next v)
  | .act _ next => Lapses T L next

section Lapses

variable {L : α → Prop} {L' : β → Prop} {p : Program α}

theorem lapses_of_forall (hT : T) (hL : ∀ a, L a) : p.Lapses T L := by
  induction p with
  | done a => exact ⟨hT, hL a⟩
  | fault => exact hT
  | limit => exact hT
  | read _ next ih => exact ih
  | act _ next ih => exact ih

theorem Lapses.bind {f : α → Program β} (hp : p.Lapses T L)
    (hf : ∀ a, T → L a → (f a).Lapses T L') : (p.bind f).Lapses T L' := by
  induction p with
  | done a => exact hf a hp.1 hp.2
  | fault => exact hp
  | limit => exact hp
  | read _ next ih => exact fun v => ih v (hp v)
  | act _ next ih => exact ih hp

/-- What is not allowed for does not happen. -/
theorem Lapses.allowed (hp : p.Lapses T L) : T := by
  induction p with
  | done a => exact hp.1
  | fault => exact hp
  | limit => exact hp
  | read _ next ih => exact ih 0 (hp 0)
  | act _ next ih => exact ih hp

theorem Lapses.follow {t : List Event} {a : α} (hp : p.Lapses T L) (h : p.follow t = some a) :
    L a := by
  induction p generalizing t with
  | done b =>
    obtain ⟨-, rfl⟩ := follow_done_iff.1 h
    exact hp.2
  | fault => simp at h
  | limit => simp at h
  | read _ next ih =>
    obtain ⟨v, t₁, -, hnext⟩ := follow_read_iff.1 h
    exact ih v (hp v) hnext
  | act _ next ih =>
    obtain ⟨t₁, -, hnext⟩ := follow_act_iff.1 h
    exact ih hp hnext

end Lapses

/-- As long as their requests, which correspond under `Q`, are answered alike, the programs go on
side by side and end alike, with values that correspond under `R`; unless the first one lapses. -/
inductive Mirrors (Q : Request → Request → Prop) (T : Prop) (L : α → Prop) (R : α → β → Prop) :
    Program α → Program β → Prop where
  /-- Both end with a value. -/
  | done {a : α} {b : β} : R a b → Mirrors Q T L R (.done a) (.done b)
  /-- Both stop the machine. -/
  | fault : Mirrors Q T L R .fault .fault
  /-- Both are cut off. -/
  | limit : Mirrors Q T L R .limit .limit
  /-- Both read. -/
  | read {a a' : Address} {next : UInt32 → Program α} {next' : UInt32 → Program β} :
      Q (.read a) (.read a') → (∀ v, Mirrors Q T L R (next v) (next' v)) →
      Mirrors Q T L R (.read a next) (.read a' next')
  /-- Both act. -/
  | act {c c' : Action} {next : Program α} {next' : Program β} : Q (.act c) (.act c') →
      Mirrors Q T L R next next' → Mirrors Q T L R (.act c next) (.act c' next')
  /-- The first one lapses. -/
  | lapse {p : Program α} {p' : Program β} : p.Lapses T L → Mirrors Q T L R p p'

section Mirrors

variable {L : α → Prop} {L' : γ → Prop} {R : α → β → Prop} {R' : γ → δ → Prop} {p : Program α}
  {p' : Program β}

theorem Mirrors.bind {f : α → Program γ} {f' : β → Program δ} (h : Mirrors Q T L R p p')
    (hnext : ∀ a b, R a b → Mirrors Q T L' R' (f a) (f' b))
    (hlapse : ∀ a, T → L a → (f a).Lapses T L') :
    Mirrors Q T L' R' (p.bind f) (p'.bind f') := by
  induction h with
  | done hab => exact hnext _ _ hab
  | fault => exact .fault
  | limit => exact .limit
  | read hq _ ih => exact .read hq ih
  | act hq _ ih => exact .act hq ih
  | lapse hp => exact .lapse (hp.bind hlapse)

/-- A first part that lapses only by not ending with a value. -/
theorem Mirrors.seq {f : α → Program γ} {f' : β → Program δ}
    (h : Mirrors Q T (fun _ => False) R p p')
    (hnext : ∀ a b, R a b → Mirrors Q T L' R' (f a) (f' b)) :
    Mirrors Q T L' R' (p.bind f) (p'.bind f') :=
  h.bind hnext fun _ _ hfalse => hfalse.elim

theorem mirrors_perform {L : Unit → Prop} {c c' : Action} (h : Q (.act c) (.act c')) :
    Mirrors Q T L Eq (perform c) (perform c') :=
  .act h (.done rfl)

end Mirrors

end Program

/-- The events are answers, the same ones, to requests that correspond. -/
inductive Event.Mirrors (Q : Request → Request → Prop) : Event → Event → Prop where
  /-- Two reads with one answer. -/
  | read {a a' : Address} {v : UInt32} : Q (.read a) (.read a') →
      Mirrors Q (.read a v) (.read a' v)
  /-- Two actions. -/
  | act {c c' : Action} : Q (.act c) (.act c') → Mirrors Q (.act c) (.act c')

theorem Event.eq_of_mirrors {t t' : List Event} (h : List.Forall₂ (Event.Mirrors Eq) t t') :
    t' = t := by
  induction h with
  | nil => rfl
  | cons he _ ih =>
    cases he with
    | read hq =>
      obtain rfl := Request.read.inj hq
      rw [ih]
    | act hq =>
      obtain rfl := Request.act.inj hq
      rw [ih]

/-- **Traces.** If the first program ends with a value, and not by a lapse, the second ends with one
that belongs to it, after events that mirror those of the first. -/
theorem Program.Mirrors.follow {L : α → Prop} {R : α → β → Prop} {p : Program α}
    {p' : Program β} {t : List Event} {a : α} (h : Mirrors Q T L R p p')
    (hfollow : p.follow t = some a) (hL : ¬ L a) :
    ∃ t' b, p'.follow t' = some b ∧ R a b ∧ List.Forall₂ (Event.Mirrors Q) t t' := by
  induction h generalizing t with
  | done hab =>
    obtain ⟨rfl, rfl⟩ := follow_done_iff.1 hfollow
    exact ⟨[], _, rfl, hab, .nil⟩
  | fault => simp at hfollow
  | limit => simp at hfollow
  | read hq _ ih =>
    obtain ⟨v, t₁, rfl, hnext⟩ := follow_read_iff.1 hfollow
    obtain ⟨t', b, hfollow', hab, hmirrors⟩ := ih v hnext
    exact ⟨_, b, follow_read_iff.2 ⟨v, t', rfl, hfollow'⟩, hab, .cons (.read hq) hmirrors⟩
  | act hq _ ih =>
    obtain ⟨t₁, rfl, hnext⟩ := follow_act_iff.1 hfollow
    obtain ⟨t', b, hfollow', hab, hmirrors⟩ := ih hnext
    exact ⟨_, b, follow_act_iff.2 ⟨t', rfl, hfollow'⟩, hab, .cons (.act hq) hmirrors⟩
  | lapse hp => exact absurd (hp.follow hfollow) hL

open Program

/-! ### Waits -/

/-- A status bit stayed clear for the whole poll budget. -/
def TimedOut (r : Except IoError α) : Prop := r = .error .timeout

/-- Under the second policy every wait goes the way it goes under the first, unless it times out
there; and if `T` allows for it, a blocking read may try more often. -/
structure PollPolicy.Pace (Q : Request → Request → Prop) (T : Prop) (policy : PollPolicy)
    (fuel : Nat) (policy' : PollPolicy) (fuel' : Nat) : Prop where
  waits : ∀ a a' mask, Q (.read a) (.read a') →
    Mirrors Q T TimedOut Eq (policy.wait fuel a mask) (policy'.wait fuel' a' mask)
  turns : fuel' = fuel ∨ T ∧ fuel ≤ fuel'

/-- Waits under one policy. -/
theorem PollPolicy.mirrors_waitFrom {L : Except IoError Unit → Prop} {policy : PollPolicy}
    {a a' : Address} {mask : UInt32} (hread : Q (.read a) (.read a'))
    (hdelay : Q (.act (.delay 1)) (.act (.delay 1))) (turns : Nat) (misses : UInt32) :
    Mirrors Q T L Eq (policy.waitFrom a mask turns misses)
      (policy.waitFrom a' mask turns misses) := by
  induction turns using Nat.strongRecOn generalizing misses with
  | ind turns ih =>
    unfold waitFrom
    refine .read hread fun v => ?_
    split
    · exact .done rfl
    · split
      · exact .done rfl
      · exact .fault
      · split
        · exact .limit
        · exact .act hdelay (ih _ (Nat.lt_succ_self _) _)

theorem PollPolicy.pace_refl (hdelay : Q (.act (.delay 1)) (.act (.delay 1)))
    (policy : PollPolicy) (fuel : Nat) : policy.Pace Q T fuel policy fuel where
  waits := fun _ _ _ hread => mirrors_waitFrom hread hdelay _ 0
  turns := .inl rfl

/-! ### Accesses of two blocks -/

namespace Block

/-- The registers of two blocks correspond. -/
structure Twin (Q : Request → Request → Prop) (b b' : Block) : Prop where
  far : ∀ q, b.address? q = none ↔ b'.address? q = none
  look : ∀ q ∈ Register.readable, Q (.read (b.location q)) (.read (b'.location q))
  write : ∀ q ∈ Register.written, ∀ v,
    Q (.act (.write (b.location q) v)) (.act (.write (b'.location q) v))
  aside : ∀ c, (∀ a v, c ≠ .write a v) → Q (.act c) (.act c)

/-- A block is its own twin. -/
theorem twin_refl (b : Block) : Twin Eq b b where
  far := fun _ => Iff.rfl
  look := fun _ _ => rfl
  write := fun _ _ _ => rfl
  aside := fun _ _ => rfl

section Accesses

variable {b b' : Block} {q : Register}

theorem Twin.mirrors_address {L : Address → Prop} (h : Twin Q b b') (q : Register) :
    Mirrors Q T L (fun a a' => a = b.location q ∧ a' = b'.location q) (b.address q)
      (b'.address q) := by
  cases ha : b.address? q with
  | none =>
    have ha' : b'.address? q = none := (h.far q).1 ha
    rw [address_of_address?_none ha, address_of_address?_none ha']
    exact .fault
  | some a =>
    cases ha' : b'.address? q with
    | none =>
      rw [(h.far q).2 ha'] at ha
      cases ha
    | some a' =>
      rw [address_of_address? ha, address_of_address? ha']
      exact .done ⟨eq_location ha, eq_location ha'⟩

theorem Twin.mirrors_read {L : UInt32 → Prop} (h : Twin Q b b') (hq : q ∈ Register.readable) :
    Mirrors Q T L Eq (b.read q) (b'.read q) := by
  refine (h.mirrors_address q).seq ?_
  rintro a a' ⟨rfl, rfl⟩
  exact .read (h.look q hq) fun _ => .done rfl

theorem Twin.mirrors_write {L : Unit → Prop} (h : Twin Q b b') (hq : q ∈ Register.written)
    (v : UInt32) : Mirrors Q T L Eq (b.write q v) (b'.write q v) := by
  refine (h.mirrors_address q).seq ?_
  rintro a a' ⟨rfl, rfl⟩
  exact mirrors_perform (h.write q hq v)

theorem Twin.mirrors_command {L : Unit → Prop} (h : Twin Q b b') (code : UInt32) :
    Mirrors Q T L Eq (b.command code) (b'.command code) :=
  h.mirrors_write (by decide) code

theorem Twin.mirrors_waitFor {policy policy' : PollPolicy} {fuel fuel' : Nat} {mask : UInt32}
    (h : Twin Q b b') (hpace : policy.Pace Q T fuel policy' fuel') (hq : q ∈ Register.readable) :
    Mirrors Q T TimedOut Eq (b.waitFor policy fuel q mask) (b'.waitFor policy' fuel' q mask) := by
  refine (h.mirrors_address q).seq ?_
  rintro a a' ⟨rfl, rfl⟩
  exact hpace.waits _ _ mask (h.look q hq)

end Accesses

end Block

/-! ### Sending -/

namespace Transmit

variable {b b' : Block} {policy policy' : PollPolicy} {fuel fuel' : Nat}

theorem mirrors_sendWords (h : Block.Twin Q b b') (hpace : policy.Pace Q T fuel policy' fuel')
    (ws : List FifoWord) :
    Mirrors Q T TimedOut Eq (sendWords b policy fuel ws) (sendWords b' policy' fuel' ws) := by
  induction ws with
  | nil => exact .done rfl
  | cons w rest ih =>
    refine (h.mirrors_waitFor hpace (by decide)).bind ?_ ?_
    · rintro r _ rfl
      cases r with
      | error e => exact (h.mirrors_command _).seq fun _ _ _ => .done rfl
      | ok _ => exact (h.mirrors_write (by decide) _).seq fun _ _ _ => ih
    · rintro r hT rfl
      have hreset : (b.command Command.resetTx).Lapses T fun _ => True :=
        lapses_of_forall hT fun _ => trivial
      exact hreset.bind fun _ hT _ => ⟨hT, rfl⟩

theorem mirrors_awaitIdle (h : Block.Twin Q b b') (hpace : policy.Pace Q T fuel policy' fuel') :
    Mirrors Q T TimedOut Eq (awaitIdle b policy fuel) (awaitIdle b' policy' fuel') := by
  refine (h.mirrors_read (by decide)).seq ?_
  rintro v _ rfl
  split
  · exact h.mirrors_waitFor hpace (by decide)
  · exact .done rfl

theorem mirrors_transfer (h : Block.Twin Q b b') (hpace : policy.Pace Q T fuel policy' fuel')
    (count : UInt32) (words : List FifoWord) :
    Mirrors Q T TimedOut Eq (transfer b policy fuel count words)
      (transfer b' policy' fuel' count words) := by
  refine (mirrors_perform (h.aside .enter fun _ _ => nofun)).seq fun _ _ _ =>
    (h.mirrors_write (by decide) _).seq fun _ _ _ => (h.mirrors_command _).seq fun _ _ _ =>
    (mirrors_sendWords h hpace words).bind ?_ ?_
  · rintro r _ rfl
    exact (mirrors_perform (h.aside .leave fun _ _ => nofun)).seq fun _ _ _ => .done rfl
  · rintro r hT hr
    exact ⟨hT, hr⟩

/-- **Sending** the same text on both blocks. -/
theorem mirrors_transmit (h : Block.Twin Q b b') (hpace : policy.Pace Q T fuel policy' fuel')
    (data : List UInt8) :
    Mirrors Q T TimedOut Eq (transmit b policy fuel data) (transmit b' policy' fuel' data) := by
  unfold transmit
  split
  · exact .done rfl
  · split
    · exact .done rfl
    · refine (mirrors_awaitIdle h hpace).bind ?_ ?_
      · rintro r _ rfl
        cases r with
        | error _ => exact .done rfl
        | ok _ => exact mirrors_transfer h hpace _ _
      · rintro r hT rfl
        exact ⟨hT, rfl⟩

theorem mirrors_drain (h : Block.Twin Q b b') (hpace : policy.Pace Q T fuel policy' fuel') :
    Mirrors Q T TimedOut Eq (drain b policy fuel) (drain b' policy' fuel') :=
  h.mirrors_waitFor hpace (by decide)

end Transmit

/-! ### Receiving -/

namespace Receive

variable {b b' : Block}

theorem mirrors_clearOverrun {L : Unit → Prop} (h : Block.Twin Q b b') :
    Mirrors Q T L Eq (clearOverrun b) (clearOverrun b') := by
  refine (h.mirrors_read (by decide)).seq ?_
  rintro v _ rfl
  split
  · exact h.mirrors_command _
  · exact .done rfl

theorem mirrors_forceOut {L : FifoWord → Prop} (h : Block.Twin Q b b') :
    Mirrors Q T L Eq (forceOut b) (forceOut b') := by
  refine (h.mirrors_command _).seq fun _ _ _ => (h.mirrors_read (by decide)).seq ?_
  rintro w _ rfl
  exact (h.mirrors_command _).seq fun _ _ _ =>
    (h.mirrors_write (by decide) _).seq fun _ _ _ => .done rfl

theorem mirrors_fetch {L : Option Received → Prop} (h : Block.Twin Q b b') :
    Mirrors Q T L Eq (fetch b) (fetch b') := by
  refine (mirrors_clearOverrun h).seq fun _ _ _ => (h.mirrors_read (by decide)).seq ?_
  rintro v _ rfl
  split
  · refine (h.mirrors_read (by decide)).seq ?_
    rintro w _ rfl
    exact .done rfl
  · refine (h.mirrors_read (by decide)).seq ?_
    rintro n _ rfl
    dsimp only
    split
    · exact .done rfl
    · refine (mirrors_forceOut h).seq ?_
      rintro w _ rfl
      exact .done rfl

/-- **Receiving** a word, with at least as much patience on the second block. -/
theorem mirrors_fetchWaiting {L : Received → Prop} (h : Block.Twin Q b b') {turns turns' : Nat}
    (hturns : turns' = turns ∨ T ∧ turns ≤ turns') :
    Mirrors Q T L Eq (fetchWaiting b turns) (fetchWaiting b' turns') := by
  induction turns generalizing turns' with
  | zero =>
    unfold fetchWaiting
    refine (mirrors_fetch h).seq ?_
    rintro r _ rfl
    cases r with
    | some _ => exact .done rfl
    | none =>
      rcases hturns with rfl | ⟨hT, -⟩
      · exact .limit
      · exact .lapse hT
  | succ turns ih =>
    obtain ⟨turns', rfl⟩ : ∃ n, turns' = n + 1 := Nat.exists_eq_succ_of_ne_zero (by omega)
    unfold fetchWaiting
    refine (mirrors_fetch h).seq ?_
    rintro r _ rfl
    cases r with
    | some _ => exact .done rfl
    | none => exact ih (hturns.imp Nat.succ.inj fun h => ⟨h.1, Nat.le_of_succ_le_succ h.2⟩)

end Receive

end PolledUart
