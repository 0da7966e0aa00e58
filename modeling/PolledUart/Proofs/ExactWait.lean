import PolledUart.Proofs.Answers
import PolledUart.Proofs.Clock
import PolledUart.Proofs.Responsive

/-!
# What a wait comes to

A wait reads one register again and again. What it ends with depends on the answers alone, and
so do its events: the answers in turn, with a microsecond between each two of them
(`Trace.polls`). Under a budget it ends with the first answer that has a bit of the mask, if
this comes within the budget, and with a timeout at the last poll that the budget allows, if
not. The first poll is made under every budget, so a budget of no polls is one of a single
poll.

* `PollPolicy.follow_waitFrom_budget_iff`, `PollPolicy.follow_waitFrom_forever_iff` — the
  answers that a wait ends with, whatever gives them.
* `PollPolicy.wait_exact` — the runs of a wait on a bus.
-/

namespace PolledUart

variable {σ : Type}

/-! ### Polling -/

namespace Trace

/-- The events of polling an address: its answers in turn, a microsecond apart. -/
def polls (address : Address) (answers : List UInt32) : List Event :=
  (answers.map (Event.read address)).intersperse (.act (.delay 1))

variable {address : Address} {v w : UInt32} {vs : List UInt32}

@[simp] theorem polls_nil : polls address [] = [] := rfl

@[simp] theorem polls_singleton : polls address [v] = [.read address v] := rfl

theorem polls_cons_cons :
    polls address (v :: w :: vs) = .read address v :: .act (.delay 1) :: polls address (w :: vs) :=
  rfl

theorem polls_cons (hvs : vs ≠ []) :
    polls address (v :: vs) = .read address v :: .act (.delay 1) :: polls address vs := by
  obtain ⟨w, rest, rfl⟩ := List.exists_cons_of_ne_nil hvs
  exact polls_cons_cons

/-- Fewer polls have fewer events. -/
theorem polls_append (address : Address) (hvs : vs ≠ []) (ws : List UInt32) :
    ∃ u, polls address (vs ++ ws) = polls address vs ++ u := by
  induction vs with
  | nil => exact absurd rfl hvs
  | cons v vs ih =>
    cases vs with
    | nil =>
      cases ws with
      | nil => exact ⟨[], rfl⟩
      | cons w ws => exact ⟨.act (.delay 1) :: polls address (w :: ws), rfl⟩
    | cons v' vs =>
      obtain ⟨u, hu⟩ := ih (List.cons_ne_nil v' vs)
      refine ⟨u, ?_⟩
      rw [List.cons_append, polls_cons (by simp), hu]
      rfl

@[simp] theorem readsAt_read_self (t : List Event) :
    readsAt address (.read address v :: t) = v :: readsAt address t :=
  List.filterMap_cons_some (if_pos rfl)

@[simp] theorem readsAt_act (c : Action) (t : List Event) :
    readsAt address (.act c :: t) = readsAt address t :=
  List.filterMap_cons_none rfl

@[simp] theorem delays_read (t : List Event) : delays (.read address v :: t) = delays t :=
  List.countP_cons_of_neg (by simp [Event.isDelay])

@[simp] theorem delays_delay (us : UInt32) (t : List Event) :
    delays (.act (.delay us) :: t) = delays t + 1 :=
  List.countP_cons_of_pos rfl

theorem readsAt_polls (vs : List UInt32) : readsAt address (polls address vs) = vs := by
  induction vs with
  | nil => rfl
  | cons v vs ih =>
    cases vs with
    | nil => exact readsAt_read_self []
    | cons w vs => rw [polls_cons_cons, readsAt_read_self, readsAt_act, ih]

theorem readCount_polls (vs : List UInt32) : readCount (polls address vs) = vs.length := by
  induction vs with
  | nil => rfl
  | cons v vs ih =>
    cases vs with
    | nil => simp
    | cons w vs =>
      rw [polls_cons_cons, readCount_read, readCount_act, ih]
      rfl

theorem delays_polls (vs : List UInt32) : delays (polls address vs) = vs.length - 1 := by
  induction vs with
  | nil => rfl
  | cons v vs ih =>
    cases vs with
    | nil => rfl
    | cons w vs =>
      rw [polls_cons_cons, delays_read, delays_delay, ih]
      rfl

theorem writes_polls (vs : List UInt32) : writes (polls address vs) = [] := by
  induction vs with
  | nil => rfl
  | cons v vs ih =>
    cases vs with
    | nil => rfl
    | cons w vs => rw [polls_cons_cons, writes_read, writes_delay, ih]

end Trace

/-- Polled from state `s`, an address gives these answers. -/
def Bus.Polls (bus : Bus σ) (address : Address) (s : σ) (answers : List UInt32)
    (t : List Event) (s' : σ) : Prop :=
  t = Trace.polls address answers ∧ Bus.Path bus.Step s t s'

/-- The first of the answers could have been all. -/
theorem Bus.Polls.of_append {bus : Bus σ} {address : Address} {s s' : σ} {vs ws : List UInt32}
    {t : List Event} (h : bus.Polls address s (vs ++ ws) t s') (hvs : vs ≠ []) :
    ∃ t₁ s₁, bus.Polls address s vs t₁ s₁ := by
  obtain ⟨rfl, hpath⟩ := h
  obtain ⟨u, hu⟩ := Trace.polls_append address hvs ws
  rw [hu] at hpath
  obtain ⟨s₁, hfirst, -⟩ := Bus.path_append_iff.1 hpath
  exact ⟨_, s₁, rfl, hfirst⟩

namespace PollPolicy

variable {address : Address} {mask v : UInt32} {vs : List UInt32} {r : Except IoError Unit}
  {most : Nat}

/-! ### The answers that end a wait -/

/-- No answer has a bit of the mask. -/
def AllClear (mask : UInt32) (answers : List UInt32) : Prop := ∀ v ∈ answers, v &&& mask = 0

/-- The last answer has a bit of the mask, and none before it has. -/
def SetAtLast (mask : UInt32) (answers : List UInt32) : Prop :=
  ∃ before v, answers = before ++ [v] ∧ AllClear mask before ∧ v &&& mask ≠ 0

/-- How a wait of at most `most` polls ends: well with the first answer that has a bit of the
mask, and with a timeout if this many answers have none. -/
def Ends (mask : UInt32) (most : Nat) (answers : List UInt32) (r : Except IoError Unit) : Prop :=
  r = .ok () ∧ SetAtLast mask answers ∧ answers.length ≤ most ∨
    r = .error .timeout ∧ AllClear mask answers ∧ answers.length = most

theorem SetAtLast.ne_nil (h : SetAtLast mask vs) : vs ≠ [] := by
  obtain ⟨before, v, rfl, -⟩ := h
  simp

theorem setAtLast_cons_iff :
    SetAtLast mask (v :: vs) ↔ v &&& mask ≠ 0 ∧ vs = [] ∨ v &&& mask = 0 ∧ SetAtLast mask vs := by
  constructor
  · rintro ⟨before, w, heq, hclear, hset⟩
    cases before with
    | nil =>
      obtain ⟨rfl, rfl⟩ := List.cons.inj heq
      exact .inl ⟨hset, rfl⟩
    | cons u before =>
      obtain ⟨rfl, rfl⟩ := List.cons.inj heq
      obtain ⟨hv, hbefore⟩ := List.forall_mem_cons.1 hclear
      exact .inr ⟨hv, before, w, rfl, hbefore, hset⟩
  · rintro (⟨hset, rfl⟩ | ⟨hv, before, w, rfl, hclear, hset⟩)
    · exact ⟨[], v, rfl, nofun, hset⟩
    · exact ⟨v :: before, w, rfl, List.forall_mem_cons.2 ⟨hv, hclear⟩, hset⟩

/-- A bit that is found in some answer is found in a first one. -/
theorem exists_setAtLast (h : ∃ v ∈ vs, v &&& mask ≠ 0) :
    ∃ ws rest, vs = ws ++ rest ∧ SetAtLast mask ws := by
  induction vs with
  | nil =>
    obtain ⟨v, hv, -⟩ := h
    exact absurd hv List.not_mem_nil
  | cons u vs ih =>
    by_cases hu : u &&& mask = 0
    · obtain ⟨v, hv, hset⟩ := h
      rcases List.mem_cons.1 hv with rfl | hv
      · exact absurd hu hset
      · obtain ⟨ws, rest, rfl, hws⟩ := ih ⟨v, hv, hset⟩
        exact ⟨u :: ws, rest, rfl, setAtLast_cons_iff.2 (.inr ⟨hu, hws⟩)⟩
    · exact ⟨[u], vs, rfl, setAtLast_cons_iff.2 (.inl ⟨hu, rfl⟩)⟩

theorem ends_zero_iff : Ends mask 0 vs r ↔ vs = [] ∧ r = .error .timeout := by
  constructor
  · rintro (⟨-, hset, hlength⟩ | ⟨rfl, -, hlength⟩)
    · exact absurd (List.length_eq_zero_iff.1 (Nat.le_zero.1 hlength)) hset.ne_nil
    · exact ⟨List.length_eq_zero_iff.1 hlength, rfl⟩
  · rintro ⟨rfl, rfl⟩
    exact .inr ⟨rfl, nofun, rfl⟩

theorem ends_succ_cons_iff :
    Ends mask (most + 1) (v :: vs) r ↔
      v &&& mask ≠ 0 ∧ vs = [] ∧ r = .ok () ∨ v &&& mask = 0 ∧ Ends mask most vs r := by
  constructor
  · rintro (⟨rfl, hset, hlength⟩ | ⟨rfl, hclear, hlength⟩)
    · rcases setAtLast_cons_iff.1 hset with ⟨hv, rfl⟩ | ⟨hv, hset⟩
      · exact .inl ⟨hv, rfl, rfl⟩
      · exact .inr ⟨hv, .inl ⟨rfl, hset, Nat.le_of_succ_le_succ hlength⟩⟩
    · obtain ⟨hv, hclear⟩ := List.forall_mem_cons.1 hclear
      exact .inr ⟨hv, .inr ⟨rfl, hclear, Nat.succ.inj hlength⟩⟩
  · rintro (⟨hv, rfl, rfl⟩ | ⟨hv, ⟨rfl, hset, hlength⟩ | ⟨rfl, hclear, hlength⟩⟩)
    · exact .inl ⟨rfl, setAtLast_cons_iff.2 (.inl ⟨hv, rfl⟩), Nat.succ_le_succ (Nat.zero_le _)⟩
    · exact .inl ⟨rfl, setAtLast_cons_iff.2 (.inr ⟨hv, hset⟩), Nat.succ_le_succ hlength⟩
    · exact .inr ⟨rfl, List.forall_mem_cons.2 ⟨hv, hclear⟩, congrArg Nat.succ hlength⟩

theorem Ends.ne_nil (h : Ends mask (most + 1) vs r) : vs ≠ [] := by
  rcases h with ⟨-, hset, -⟩ | ⟨-, -, hlength⟩
  · exact hset.ne_nil
  · exact List.ne_nil_of_length_eq_add_one hlength

/-! ### The program of a wait -/

variable {policy : PollPolicy} {polls misses : UInt32} {turns : Nat} {t : List Event}

/-- One poll of a wait, and what follows it. -/
theorem follow_waitFrom_iff :
    (policy.waitFrom address mask turns misses).follow t = some r ↔
      ∃ v t₁, t = .read address v :: t₁ ∧
        (v &&& mask ≠ 0 ∧ t₁ = [] ∧ r = .ok () ∨
          v &&& mask = 0 ∧ (policy.miss misses = .giveUp ∧ t₁ = [] ∧ r = .error .timeout ∨
            ∃ misses' turns' t₂, policy.miss misses = .again misses' ∧ turns = turns' + 1 ∧
              t₁ = .act (.delay 1) :: t₂ ∧
              (policy.waitFrom address mask turns' misses').follow t₂ = some r)) := by
  conv => lhs; unfold waitFrom
  rw [Program.follow_read_iff]
  refine exists_congr fun v => exists_congr fun t₁ => and_congr_right fun _ => ?_
  by_cases hv : v &&& mask = 0
  · cases hmiss : policy.miss misses with
    | giveUp => simp [hv]
    | fault => simp [hv]
    | again misses' =>
      cases turns with
      | zero => simp [hv]
      | succ turns => simp [hv, Program.follow_act_iff]
  · simp [hv]

/-- A wait under a budget gives up with the miss that uses it up, and counts every other. -/
theorem Counted.miss_budget (h : (budget polls).Counted misses) :
    polls.toNat ≤ misses.toNat + 1 ∧ (budget polls).miss misses = .giveUp ∨
      ∃ misses', (budget polls).miss misses = .again misses' ∧
        misses'.toNat = misses.toNat + 1 ∧ misses'.toNat < polls.toNat := by
  cases hmiss : (budget polls).miss misses with
  | again misses' => exact .inr ⟨misses', rfl, toNat_of_again hmiss⟩
  | fault => exact absurd hmiss h.miss_ne_fault
  | giveUp =>
    unfold miss at hmiss
    dsimp only at hmiss
    split at hmiss
    · rename_i hfit
      split at hmiss
      · rename_i hle
        have hnat := UInt32.le_iff_toNat_le.1 hle
        rw [UInt32.toNat_add] at hnat
        exact .inl ⟨Nat.mod_eq_of_lt hfit ▸ hnat, rfl⟩
      · cases hmiss
    · cases hmiss

/-- **A wait under a budget**, with the polls that are left of it. -/
theorem follow_waitFrom_budget_iff (hcounted : (budget polls).Counted misses)
    (hturns : misses.toNat + turns = polls.toNat) (hleft : max 1 turns = most + 1) :
    ((budget polls).waitFrom address mask turns misses).follow t = some r ↔
      ∃ vs, t = Trace.polls address vs ∧ Ends mask (most + 1) vs r := by
  induction most generalizing turns misses t with
  | zero =>
    -- the last poll: a miss uses up the budget
    have hmiss : (budget polls).miss misses = .giveUp := by
      rcases hcounted.miss_budget with ⟨-, h⟩ | ⟨misses', -, hcount, hlt⟩
      · exact h
      · omega
    rw [follow_waitFrom_iff]
    constructor
    · rintro ⟨v, _, rfl, ⟨hv, rfl, rfl⟩ | ⟨hv, ⟨-, rfl, rfl⟩ | ⟨misses', _, _, hagain, -⟩⟩⟩
      · exact ⟨[v], rfl, ends_succ_cons_iff.2 (.inl ⟨hv, rfl, rfl⟩)⟩
      · exact ⟨[v], rfl, ends_succ_cons_iff.2 (.inr ⟨hv, ends_zero_iff.2 ⟨rfl, rfl⟩⟩)⟩
      · rw [hmiss] at hagain
        cases hagain
    · rintro ⟨vs, rfl, hends⟩
      obtain ⟨v, rest, rfl⟩ := List.exists_cons_of_ne_nil hends.ne_nil
      rcases ends_succ_cons_iff.1 hends with ⟨hv, rfl, rfl⟩ | ⟨hv, hends⟩
      · exact ⟨v, [], rfl, .inl ⟨hv, rfl, rfl⟩⟩
      · obtain ⟨rfl, rfl⟩ := ends_zero_iff.1 hends
        exact ⟨v, [], rfl, .inr ⟨hv, .inl ⟨hmiss, rfl, rfl⟩⟩⟩
  | succ most ih =>
    obtain ⟨turns, rfl⟩ : ∃ n, turns = n + 1 := ⟨turns - 1, by omega⟩
    obtain ⟨misses', hmiss, hcount⟩ : ∃ misses', (budget polls).miss misses = .again misses' ∧
        misses'.toNat = misses.toNat + 1 := by
      rcases hcounted.miss_budget with ⟨hle, -⟩ | ⟨misses', h, hcount, -⟩
      · omega
      · exact ⟨misses', h, hcount⟩
    have hrest : ∀ u, ((budget polls).waitFrom address mask turns misses').follow u = some r ↔
        ∃ vs, u = Trace.polls address vs ∧ Ends mask (most + 1) vs r :=
      fun _ => ih (.again hmiss) (by omega) (by omega)
    rw [follow_waitFrom_iff]
    constructor
    · rintro ⟨v, _, rfl, ⟨hv, rfl, rfl⟩ | ⟨hv, ⟨hgive, -⟩ | ⟨_, _, u, hagain, heq, rfl, h⟩⟩⟩
      · exact ⟨[v], rfl, ends_succ_cons_iff.2 (.inl ⟨hv, rfl, rfl⟩)⟩
      · rw [hmiss] at hgive
        cases hgive
      · obtain rfl := Nat.succ.inj heq
        obtain rfl := AfterMiss.again.inj (hmiss.symm.trans hagain)
        obtain ⟨vs, rfl, hends⟩ := (hrest u).1 h
        exact ⟨v :: vs, (Trace.polls_cons hends.ne_nil).symm,
          ends_succ_cons_iff.2 (.inr ⟨hv, hends⟩)⟩
    · rintro ⟨vs, rfl, hends⟩
      obtain ⟨v, rest, rfl⟩ := List.exists_cons_of_ne_nil hends.ne_nil
      rcases ends_succ_cons_iff.1 hends with ⟨hv, rfl, rfl⟩ | ⟨hv, hends⟩
      · exact ⟨v, [], rfl, .inl ⟨hv, rfl, rfl⟩⟩
      · exact ⟨v, _, Trace.polls_cons hends.ne_nil, .inr ⟨hv, .inr
          ⟨misses', turns, _, hmiss, rfl, rfl, (hrest _).2 ⟨rest, rfl, hends⟩⟩⟩⟩

/-- **A wait without a budget**, unrolled a number of times. -/
theorem follow_waitFrom_forever_iff :
    (forever.waitFrom address mask turns misses).follow t = some r ↔
      r = .ok () ∧ ∃ vs, t = Trace.polls address vs ∧ SetAtLast mask vs ∧
        vs.length ≤ turns + 1 := by
  induction turns generalizing t with
  | zero =>
    rw [follow_waitFrom_iff]
    constructor
    · rintro ⟨v, _, rfl, ⟨hv, rfl, rfl⟩ | ⟨-, ⟨hgive, -⟩ | ⟨_, _, _, -, heq, -⟩⟩⟩
      · exact ⟨rfl, [v], rfl, setAtLast_cons_iff.2 (.inl ⟨hv, rfl⟩), Nat.le_refl _⟩
      · cases hgive
      · cases heq
    · rintro ⟨rfl, vs, rfl, hset, hlength⟩
      obtain ⟨v, rest, rfl⟩ := List.exists_cons_of_ne_nil hset.ne_nil
      obtain rfl := List.length_eq_zero_iff.1 (Nat.le_zero.1 (Nat.le_of_succ_le_succ hlength))
      rcases setAtLast_cons_iff.1 hset with ⟨hv, -⟩ | ⟨-, hset⟩
      · exact ⟨v, [], rfl, .inl ⟨hv, rfl, rfl⟩⟩
      · exact absurd rfl hset.ne_nil
  | succ turns ih =>
    rw [follow_waitFrom_iff]
    constructor
    · rintro ⟨v, _, rfl, ⟨hv, rfl, rfl⟩ | ⟨hv, ⟨hgive, -⟩ | ⟨_, _, u, hagain, heq, rfl, h⟩⟩⟩
      · exact ⟨rfl, [v], rfl, setAtLast_cons_iff.2 (.inl ⟨hv, rfl⟩), by simp⟩
      · cases hgive
      · obtain rfl := Nat.succ.inj heq
        obtain rfl := AfterMiss.again.inj hagain
        obtain ⟨rfl, vs, rfl, hset, hlength⟩ := ih.1 h
        exact ⟨rfl, v :: vs, (Trace.polls_cons hset.ne_nil).symm,
          setAtLast_cons_iff.2 (.inr ⟨hv, hset⟩), Nat.succ_le_succ hlength⟩
    · rintro ⟨rfl, vs, rfl, hset, hlength⟩
      obtain ⟨v, rest, rfl⟩ := List.exists_cons_of_ne_nil hset.ne_nil
      rcases setAtLast_cons_iff.1 hset with ⟨hv, rfl⟩ | ⟨hv, hset⟩
      · exact ⟨v, [], rfl, .inl ⟨hv, rfl, rfl⟩⟩
      · exact ⟨v, _, Trace.polls_cons hset.ne_nil, .inr ⟨hv, .inr ⟨misses, turns, _, rfl, rfl, rfl,
          ih.2 ⟨rfl, rest, rfl, hset, Nat.le_of_succ_le_succ hlength⟩⟩⟩⟩

/-! ### Waits on a bus -/

variable {bus : Bus σ} {s s' : σ} {fuel : Nat}

theorem completes_wait_budget_iff :
    bus.Completes ((budget polls).wait fuel address mask) s t r s' ↔
      ∃ vs, bus.Polls address s vs t s' ∧ Ends mask (max 1 polls.toNat) vs r := by
  obtain ⟨most, hmost⟩ : ∃ n, max 1 polls.toNat = n + 1 := ⟨max 1 polls.toNat - 1, by omega⟩
  have hprogram : (budget polls).wait fuel address mask =
      (budget polls).waitFrom address mask polls.toNat 0 := rfl
  rw [Bus.completes_iff_follow, hmost, hprogram,
    follow_waitFrom_budget_iff (counted_zero _) (Nat.zero_add _) hmost]
  constructor
  · rintro ⟨⟨vs, rfl, hends⟩, hpath⟩
    exact ⟨vs, ⟨rfl, hpath⟩, hends⟩
  · rintro ⟨vs, ⟨rfl, hpath⟩, hends⟩
    exact ⟨⟨vs, rfl, hends⟩, hpath⟩

theorem completes_wait_forever_iff :
    bus.Completes (forever.wait fuel address mask) s t r s' ↔
      r = .ok () ∧ ∃ vs, bus.Polls address s vs t s' ∧ SetAtLast mask vs ∧
        vs.length ≤ fuel + 1 := by
  rw [Bus.completes_iff_follow, wait, follow_waitFrom_forever_iff]
  constructor
  · rintro ⟨⟨rfl, vs, rfl, hset, hlength⟩, hpath⟩
    exact ⟨rfl, vs, ⟨rfl, hpath⟩, hset, hlength⟩
  · rintro ⟨rfl, vs, ⟨rfl, hpath⟩, hset, hlength⟩
    exact ⟨⟨rfl, vs, rfl, hset, hlength⟩, hpath⟩

/-- Of all the polls that an address answers, those up to the first with a bit of the mask. -/
theorem exists_polls_setAtLast (h : bus.Polls address s vs t s')
    (hset : ∃ v ∈ vs, v &&& mask ≠ 0) :
    ∃ ws u s₁, bus.Polls address s ws u s₁ ∧ SetAtLast mask ws ∧ ws.length ≤ vs.length := by
  obtain ⟨ws, rest, rfl, hws⟩ := exists_setAtLast hset
  obtain ⟨u, s₁, hpolls⟩ := h.of_append hws.ne_nil
  exact ⟨ws, u, s₁, hpolls, hws, by simp⟩

theorem SetAtLast.exists_set (h : SetAtLast mask vs) : ∃ v ∈ vs, v &&& mask ≠ 0 := by
  obtain ⟨before, v, rfl, -, hset⟩ := h
  exact ⟨v, by simp, hset⟩

/-- If the polls that a budget allows are answered, a wait under it comes to its end. -/
theorem completes_wait_of_polls (h : bus.Polls address s vs t s')
    (hlength : vs.length = max 1 polls.toNat) (fuel : Nat) :
    ∃ u r s₁, bus.Completes ((budget polls).wait fuel address mask) s u r s₁ := by
  by_cases hset : ∃ v ∈ vs, v &&& mask ≠ 0
  · obtain ⟨ws, u, s₁, hpolls, hws, hle⟩ := exists_polls_setAtLast h hset
    exact ⟨u, .ok (), s₁, completes_wait_budget_iff.2
      ⟨ws, hpolls, .inl ⟨rfl, hws, Nat.le_trans hle (Nat.le_of_eq hlength)⟩⟩⟩
  · have hclear : AllClear mask vs := fun v hv =>
      Decidable.byContradiction fun hne => hset ⟨v, hv, hne⟩
    exact ⟨t, .error .timeout, s', completes_wait_budget_iff.2
      ⟨vs, h, .inr ⟨rfl, hclear, hlength⟩⟩⟩

/-- **A wait is exact.** Whatever the bus does, from every state of it:

* under a budget the completed runs of a wait are those that poll the address and end with the
  first answer that has a bit of the mask, at the latest with the last poll of the budget, or
  with a timeout after all these polls if no answer has one;
* so a wait succeeds if and only if there is such an answer in time, and it comes to an end
  wherever its polls are answered;
* without a budget a wait completes if and only if some answer has a bit of the mask, with the
  first of them;
* the events of polling are one read for each answer, a delay of a microsecond between each two
  reads, and no write;
* no wait asks to be stopped: no count of misses leaves its 32 bits. -/
theorem wait_exact (bus : Bus σ) (address : Address) (mask : UInt32) (s : σ) :
    (∀ polls fuel,
      (∀ t r s', bus.Completes ((budget polls).wait fuel address mask) s t r s' ↔
        ∃ vs, bus.Polls address s vs t s' ∧ Ends mask (max 1 polls.toNat) vs r) ∧
      ((∃ t s', bus.Completes ((budget polls).wait fuel address mask) s t (.ok ()) s') ↔
        ∃ vs t s', bus.Polls address s vs t s' ∧ vs.length ≤ max 1 polls.toNat ∧
          ∃ v ∈ vs, v &&& mask ≠ 0) ∧
      ((∃ vs t s', bus.Polls address s vs t s' ∧ vs.length = max 1 polls.toNat) →
        ∃ t r s', bus.Completes ((budget polls).wait fuel address mask) s t r s')) ∧
    (∀ fuel t r s', bus.Completes (forever.wait fuel address mask) s t r s' ↔
      r = .ok () ∧ ∃ vs, bus.Polls address s vs t s' ∧ SetAtLast mask vs ∧
        vs.length ≤ fuel + 1) ∧
    ((∃ fuel t r s', bus.Completes (forever.wait fuel address mask) s t r s') ↔
      ∃ vs t s', bus.Polls address s vs t s' ∧ ∃ v ∈ vs, v &&& mask ≠ 0) ∧
    (∀ vs t s', bus.Polls address s vs t s' →
      Trace.readsAt address t = vs ∧ Trace.readCount t = vs.length ∧
        Trace.delays t = vs.length - 1 ∧ Trace.writes t = []) ∧
    ∀ (policy : PollPolicy) (fuel : Nat),
      (policy.wait fuel address mask).Asks (· ≠ .stop) fun _ => True := by
  refine ⟨fun polls fuel => ⟨fun _ _ _ => completes_wait_budget_iff, ⟨?_, ?_⟩, ?_⟩,
    fun _ _ _ _ => completes_wait_forever_iff, ⟨?_, ?_⟩, ?_, fun policy fuel => ?_⟩
  · rintro ⟨t, s', h⟩
    obtain ⟨vs, hpolls, ⟨-, hset, hlength⟩ | ⟨hr, -⟩⟩ := completes_wait_budget_iff.1 h
    · exact ⟨vs, t, s', hpolls, hlength, hset.exists_set⟩
    · cases hr
  · rintro ⟨vs, t, s', hpolls, hlength, hset⟩
    obtain ⟨ws, u, s₁, hfirst, hws, hle⟩ := exists_polls_setAtLast hpolls hset
    exact ⟨u, s₁, completes_wait_budget_iff.2
      ⟨ws, hfirst, .inl ⟨rfl, hws, Nat.le_trans hle hlength⟩⟩⟩
  · rintro ⟨vs, t, s', hpolls, hlength⟩
    exact completes_wait_of_polls hpolls hlength fuel
  · rintro ⟨fuel, t, r, s', h⟩
    obtain ⟨-, vs, hpolls, hset, -⟩ := completes_wait_forever_iff.1 h
    exact ⟨vs, t, s', hpolls, hset.exists_set⟩
  · rintro ⟨vs, t, s', hpolls, hset⟩
    obtain ⟨ws, u, s₁, hfirst, hws, -⟩ := exists_polls_setAtLast hpolls hset
    exact ⟨ws.length, u, .ok (), s₁,
      completes_wait_forever_iff.2 ⟨rfl, ws, hfirst, hws, Nat.le_succ _⟩⟩
  · rintro vs t s' ⟨rfl, -⟩
    exact ⟨Trace.readsAt_polls vs, Trace.readCount_polls vs, Trace.delays_polls vs,
      Trace.writes_polls vs⟩
  · exact asks_waitFrom nofun nofun _ policy.counted_zero

end PollPolicy

end PolledUart
