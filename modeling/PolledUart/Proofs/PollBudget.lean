import PolledUart.Proofs.CallMirroring
import PolledUart.Sim.Bench

/-!
# The poll budget only matters when it runs out

A driver that waits longer asks for more only once its budget has run out. So a session in
which no wait gives up goes the same way under every policy that is at least as patient,
event by event: each wait begins with a fresh count of misses, and polls and delays in the
same order.

* `PollPolicy.pace_of_outlasts` — a single wait, and with it all waits.
* `Session.perform_of_patience` — a call.
* `replay_of_patience` — all moves of a session.
-/

namespace PolledUart

open Program

/-! ### Waits -/

namespace PollPolicy

/-- The policy waits at least as long as a budget. -/
def Outlasts (policy : PollPolicy) (polls : UInt32) : Prop :=
  match policy with
  | .forever => True
  | .budget polls' => polls ≤ polls'

variable {policy : PollPolicy} {polls misses misses' next : UInt32}

/-- Two counts of misses that belong together: without a budget misses are not counted. -/
def CountsLike (policy : PollPolicy) (misses misses' : UInt32) : Prop :=
  policy = .forever ∨ misses' = misses

/-- As long as a budget lets a wait go on, a policy that outlasts it does too. -/
theorem Outlasts.again (h : policy.Outlasts polls) (hcount : policy.CountsLike misses misses')
    (hmiss : (budget polls).miss misses = .again next) :
    ∃ next', policy.miss misses' = .again next' ∧ policy.CountsLike next next' := by
  cases policy with
  | forever => exact ⟨misses', rfl, .inl rfl⟩
  | budget polls' =>
    obtain rfl : misses' = misses := hcount.resolve_left nofun
    unfold miss at hmiss ⊢
    dsimp only at hmiss ⊢
    split at hmiss
    · rename_i hfits
      split at hmiss
      · cases hmiss
      · rename_i hleft
        obtain rfl := AfterMiss.again.inj hmiss
        have hmore : ¬ polls' ≤ misses' + 1 := fun hle => hleft (UInt32.le_trans h hle)
        rw [if_pos hfits, if_neg hmore]
        exact ⟨_, rfl, .inr rfl⟩
    · cases hmiss

/-- **One wait.** Until the budget runs out, both policies poll and delay alike. -/
theorem Outlasts.mirrors_waitFrom (h : policy.Outlasts polls) {a : Address} {mask : UInt32}
    {turns turns' : Nat} (hturns : turns ≤ turns')
    (hcount : policy.CountsLike misses misses') :
    Mirrors Eq True TimedOut Eq ((budget polls).waitFrom a mask turns misses)
      (policy.waitFrom a mask turns' misses') := by
  induction turns generalizing turns' misses misses' with
  | zero =>
    unfold waitFrom
    refine .read rfl fun v => ?_
    split
    · exact .done rfl
    · split
      · exact .lapse ⟨trivial, rfl⟩
      · exact .lapse trivial
      · exact .lapse trivial
  | succ turns ih =>
    obtain ⟨turns', rfl⟩ : ∃ n, turns' = n + 1 := Nat.exists_eq_succ_of_ne_zero (by omega)
    unfold waitFrom
    refine .read rfl fun v => ?_
    split
    · exact .done rfl
    · split
      · exact .lapse ⟨trivial, rfl⟩
      · exact .lapse trivial
      · rename_i next hmiss
        obtain ⟨next', hmiss', hcount'⟩ := h.again hcount hmiss
        rw [hmiss']
        exact .act rfl (ih (Nat.le_of_succ_le_succ hturns) hcount')

/-- **All waits**, if those without a budget are unrolled often enough. -/
theorem pace_of_outlasts (h : policy.Outlasts polls) {fuel fuel' : Nat} (hfuel : fuel ≤ fuel')
    (hpolls : polls.toNat ≤ fuel') : (budget polls).Pace Eq True fuel policy fuel' where
  waits := by
    rintro a _ mask hread
    obtain rfl := Request.read.inj hread
    refine h.mirrors_waitFrom ?_ (.inr rfl)
    cases policy with
    | forever => exact hpolls
    | budget polls' => exact UInt32.le_iff_toNat_le.1 h
  turns := .inr ⟨trivial, hfuel⟩

end PollPolicy

/-! ### Calls -/

section Sessions

variable {σ κ : Type} {slots : Nat} {bus : Bus σ} {operate : κ → σ → Option σ} {polls : UInt32}
  {policy : PollPolicy} {fuel n : Nat} {c : Call} {reply : Reply} {t : List Event}

/-- The driver with another poll policy. -/
def Driver.polling (policy : PollPolicy) (d : Driver slots) : Driver slots :=
  { d with config := { d.config with poll := policy } }

/-- The session with another poll policy. -/
def Session.polling (policy : PollPolicy) (s : Session σ slots) : Session σ slots :=
  ⟨s.driver.polling policy, s.bus⟩

namespace Entry

/-- The entry under another poll policy. -/
def polling (policy : PollPolicy) : Entry slots κ → Entry slots κ
  | .call d c reply t => .call (d.polling policy) c reply t
  | .control k => .control k

/-- A status wait has given up: the call has failed for a timeout, whether its answer tells or
not. -/
def TimedOut : Entry slots κ → Prop
  | .call d c reply t =>
    ∃ fuel d', (c.withCause fuel d).follow t = some ((some .timeout, reply), d')
  | .control _ => False

end Entry

/-- The move with its loops unrolled at least `n` times. -/
def Move.unrolled (n : Nat) : Move κ → Move κ
  | .call fuel c => .call (max fuel n) c
  | .control k => .control k

/-- Formatted output is the only one whose answer does not tell why it failed. -/
theorem Call.cause_eq {d d' : Driver slots} {cause : Option IoError}
    (h : (c.withCause fuel d).follow t = some ((cause, reply), d'))
    (hreply : reply ≠ .text (.error .failed)) : cause = reply.cause? := by
  have htext : ∀ {r : Except IoError Unit}, reply = .text (Driver.formatted r) →
      (Reply.done r).cause? = reply.cause? := by
    rintro r rfl
    cases r with
    | error e => exact absurd rfl hreply
    | ok _ => rfl
  have hplain : ∀ {p : Program (Reply × Driver slots)},
      (p.bind fun x => .done ((x.1.cause?, x.1), x.2)).follow t = some ((cause, reply), d') →
      cause = reply.cause? := by
    intro p hp
    obtain ⟨x, -, hx⟩ := follow_bind_done_iff.1 hp
    simp only [Prod.mk.injEq] at hx
    obtain ⟨⟨rfl, rfl⟩, -⟩ := hx
    rfl
  cases c with
  | writeText port text | writePieces port pieces =>
    obtain ⟨r, -, hx⟩ := follow_bind_done_iff.1 h
    simp only [Prod.mk.injEq] at hx
    obtain ⟨⟨rfl, hr⟩, -⟩ := hx
    exact htext hr
  | _ => exact hplain h

/-- The answer of an entry tells that the call has not timed out. -/
def Entry.tellsNoTimeout : Entry slots κ → Bool
  | .call _ _ (.text (.error _)) _ => false
  | .call _ _ reply _ => reply.cause? != some .timeout
  | .control _ => true

theorem Entry.not_timedOut {e : Entry slots κ} (h : e.tellsNoTimeout = true) : ¬ e.TimedOut := by
  cases e with
  | control k => exact id
  | call d c reply t =>
    rintro ⟨fuel, d', hfollow⟩
    unfold tellsNoTimeout at h
    split at h
    · cases h
    · rename_i reply' _ htext heq
      simp only [Entry.call.injEq] at heq
      obtain ⟨-, -, rfl, -⟩ := heq
      have hcause := Call.cause_eq hfollow fun hfailed => htext _ hfailed
      rw [← hcause] at h
      simp at h
    · rename_i heq
      cases heq

/-- **A call** in which no wait gives up goes the same way under a policy with more patience. -/
theorem Session.perform_of_patience {x x₁ : Session σ slots}
    (hpoll : x.driver.config.poll = .budget polls) (hpolicy : policy.Outlasts polls)
    (hn : polls.toNat ≤ n) (h : Session.perform bus fuel c x = ⟨.ok reply x₁, t⟩)
    (htimeout : ¬ (Entry.call x.driver c reply t : Entry slots κ).TimedOut) :
    Session.perform bus (max fuel n) c (x.polling policy) = ⟨.ok reply (x₁.polling policy), t⟩ := by
  obtain ⟨hfollow, hpath⟩ := Bus.completes_iff_follow.1 (Session.perform_eq_ok_iff.1 h)
  rw [Call.program_eq] at hfollow
  obtain ⟨⟨⟨cause, reply'⟩, d'⟩, hcause, hx⟩ := follow_bind_done_iff.1 hfollow
  obtain ⟨rfl, rfl⟩ := Prod.mk.inj hx
  have hpair : Driver.Pair (fun _ => True) x.driver.config
      { x.driver.config with poll := policy } x.driver.ports x.driver (x.driver.polling policy) :=
    ⟨rfl, rfl, rfl, rfl, fun _ _ => rfl⟩
  have hpace : x.driver.config.poll.Pace Eq True fuel policy (max fuel n) := by
    rw [hpoll]
    exact PollPolicy.pace_of_outlasts hpolicy (Nat.le_max_left _ _)
      (Nat.le_trans hn (Nat.le_max_right _ _))
  have hcall := Driver.mirrors_call (c := c) hpair hpace ⟨rfl, rfl, rfl⟩
    (fun _ _ _ _ _ => ⟨Block.twin_refl _, fun _ _ _ => rfl⟩)
    (fun _ _ => ⟨trivial, fun _ _ => Block.twin_refl _⟩)
  have hcalm : ¬ Driver.CallTimedOut ((cause, reply), x₁.driver) := by
    rintro rfl
    exact htimeout ⟨fuel, x₁.driver, hcause⟩
  obtain ⟨t', ⟨y, d₁⟩, hfollow', ⟨ports', hy, hd₁⟩, hmirrors⟩ := hcall.follow hcause hcalm
  obtain rfl := Event.eq_of_mirrors hmirrors
  dsimp only at hy hd₁
  obtain rfl : d₁ = x₁.driver.polling policy := by
    rw [hd₁.eq_withConfig, Driver.polling, hd₁.config_eq]
  subst hy
  refine Session.perform_eq_ok_iff.2 (Bus.completes_iff_follow.2 ⟨?_, hpath⟩)
  rw [Call.program_eq]
  exact follow_bind_done_iff.2 ⟨_, hfollow', rfl⟩

/-! ### Sessions -/

/-- A call does not change the policy. -/
theorem Session.config_of_perform {x x₁ : Session σ slots}
    (h : Session.perform bus fuel c x = ⟨.ok reply x₁, t⟩) :
    x₁.driver.config = x.driver.config :=
  (Driver.leaves_of_completes (Session.perform_eq_ok_iff.1 h)).config_eq

/-- **The poll budget only matters when it runs out.** If no status wait of a session gives up,
the session goes the same way without a budget, and with every larger one: the same answers after
the same events, the same drivers but for the policy, and the same state of the bus. -/
theorem replay_of_patience {moves : List (Move κ)} {x x' : Session σ slots}
    {entries : List (Entry slots κ)} (hpoll : x.driver.config.poll = .budget polls)
    (h : Session.replay bus operate moves x = some (entries, x'))
    (htimeout : ∀ e ∈ entries, ¬ e.TimedOut) (hpolicy : policy.Outlasts polls)
    (hn : polls.toNat ≤ n) :
    Session.replay bus operate (moves.map (Move.unrolled n)) (x.polling policy) =
      some (entries.map (Entry.polling policy), x'.polling policy) := by
  induction moves generalizing x entries with
  | nil =>
    obtain ⟨rfl, rfl⟩ := Prod.mk.inj (Option.some.inj h)
    rfl
  | cons m rest ih =>
    cases m with
    | call fuel c =>
      rw [Session.replay] at h
      split at h
      · rename_i reply s₁ t hperform
        obtain ⟨⟨later, s₂⟩, hlater, hr⟩ := Option.map_eq_some_iff.1 h
        obtain ⟨rfl, rfl⟩ := Prod.mk.inj hr
        obtain ⟨hfirst, hothers⟩ := List.forall_mem_cons.1 htimeout
        have hpoll₁ : s₁.driver.config.poll = .budget polls := by
          rw [Session.config_of_perform hperform]
          exact hpoll
        have hcall := Session.perform_of_patience hpoll hpolicy hn hperform hfirst
        have hrest := ih hpoll₁ hlater hothers
        simp only [List.map_cons, Move.unrolled, Session.replay, hcall]
        rw [hrest]
        rfl
      · cases h
    | control k =>
      obtain ⟨y, hoperate, h₁⟩ := Option.bind_eq_some_iff.1 h
      obtain ⟨⟨later, s₂⟩, hlater, hr⟩ := Option.map_eq_some_iff.1 h₁
      obtain ⟨rfl, rfl⟩ := Prod.mk.inj hr
      have hrest := ih (x := ⟨x.driver, y⟩) hpoll hlater (List.forall_mem_cons.1 htimeout).2
      have hoperate' : operate k (x.polling policy).bus = some y := hoperate
      rw [List.map_cons, Move.unrolled, Session.replay, hoperate']
      exact congrArg (Option.map _) hrest

/-- A block that is slow to take the banner, and slow to become idle before a text: two polls in a
row fail in each wait, which a budget of three just lets pass. -/
theorem replay_of_patience_slow :
    ∃ (moves : List (Move Sim.Bench.Control)) (x x' : Session Sim.Bench 2)
      (entries : List (Entry 2 Sim.Bench.Control)),
      x.driver.config.poll = .budget 3 ∧
      Session.replay Sim.Bench.bus Sim.Bench.control moves x = some (entries, x') ∧
      (∀ e ∈ entries, ¬ e.TimedOut) ∧ (PollPolicy.forever).Outlasts 3 ∧
      (3 : UInt32).toNat ≤ 3 ∧
      Session.replay Sim.Bench.bus Sim.Bench.control (moves.map (Move.unrolled 3))
          (x.polling .forever) =
        some (entries.map (Entry.polling .forever), x'.polling .forever) ∧
      (entries.flatMap Entry.trace).countP Event.isDelay = 4 ∧
      x'.bus.txBytes = [0x68, 0x69, 0x0d, 0x0a] := by
  let moves : List (Move Sim.Bench.Control) :=
    [.control (.busyStatusPolls 3), .call 0 (.init .ready 1 none 0x1000),
      .control (.busyInterruptPolls 2), .call 0 (.writePieces ⟨0⟩ [[0x69], [], [0x0a]]),
      .control (.receive [0x61]), .call 0 (.getChar ⟨0⟩ true)]
  let x : Session Sim.Bench 2 :=
    ⟨.new { Config.standard with banner := some [0x68], poll := .budget 3 }, .new 0x1000 .blsp⟩
  have hrun : (Session.replay Sim.Bench.bus Sim.Bench.control moves x).map (fun r =>
      (r.1.all Entry.tellsNoTimeout, (r.1.flatMap Entry.trace).countP Event.isDelay,
        r.2.bus.txBytes)) =
      some (true, 4, [0x68, 0x69, 0x0d, 0x0a]) := by
    decide +kernel
  obtain ⟨⟨entries, x'⟩, hreplay, hvalues⟩ := Option.map_eq_some_iff.1 hrun
  simp only [Prod.mk.injEq] at hvalues
  obtain ⟨hcalm, hdelays, hwire⟩ := hvalues
  have htimeout : ∀ e ∈ entries, ¬ e.TimedOut := fun e he =>
    Entry.not_timedOut (List.all_eq_true.1 hcalm e he)
  exact ⟨moves, x, x', entries, rfl, hreplay, htimeout, trivial, Nat.le_refl 3,
    replay_of_patience rfl hreplay htimeout trivial (Nat.le_refl 3), hdelays, hwire⟩

end Sessions

end PolledUart
