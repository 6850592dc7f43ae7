import Fauxchange.Auth.RateLimiter

/-! The rate limiter over any calls: what it keeps of a key is what was allowed of it and is still in the window. -/

namespace Fauxchange.Auth
open Exchange Lib Fauxchange.Fix

/-- A call with its readings of the clock: the inline sweep of a check reads it a second time. -/
inductive RateCall where
  | check (key : RateLimitKey) (now sweptAt : Nat)
  | sweep (now : Nat)

def RateCall.readings : RateCall → List Nat
  | .check _ now sweptAt => [now, sweptAt]
  | .sweep now => [now]

def readingsOf (calls : List RateCall) : List Nat := calls.flatMap RateCall.readings

/-- The clock does not go back, and the window fits after each reading. -/
structure Steady (windowMs : Nat) (readings : List Nat) : Prop where
  ordered : readings.Pairwise (· ≤ ·)
  fits : ∀ reading ∈ readings, reading + windowMs ≤ u64Max

/-- A limiter, and beside it the requests that it has allowed, in order. -/
structure Metered where
  limiter : RateLimiter
  allowed : List (RateLimitKey × Nat)

namespace Metered

def start (budgets : RateLimitBudgets) (maxKeys : Nat) : Metered := ⟨.withBudgetsAndCapacity budgets maxKeys, []⟩

def step (metered : Metered) : RateCall → Metered
  | .check key now sweptAt =>
    let (decision, limiter) := metered.limiter.checkAndRecordStatus key now sweptAt
    ⟨limiter, if decision.allowed then metered.allowed ++ [(key, now)] else metered.allowed⟩
  | .sweep now => { metered with limiter := metered.limiter.sweepExpired now }

def run (metered : Metered) (calls : List RateCall) : Metered := calls.foldl step metered

/-- When the requests of a key were allowed. -/
def timesOf (metered : Metered) (key : RateLimitKey) : List Nat :=
  (metered.allowed.filter fun entry => entry.1 = key).map Prod.snd

/-- The requests of a key that were allowed within the window. -/
def used (metered : Metered) (key : RateLimitKey) (now : Nat) : List Nat :=
  live metered.limiter.budgets.windowMs now (metered.timesOf key)

def Tracked (metered : Metered) (key : RateLimitKey) : Prop := key ∈ metered.limiter.windows.map Prod.fst

/-- The tracked keys that have a request within the window. -/
def activeKeys (metered : Metered) (now : Nat) : List RateLimitKey :=
  (metered.limiter.windows.map Prod.fst).filter fun key => metered.used key now ≠ []

end Metered

/-- The positive budgets of the configuration, each an unsigned 32-bit number. -/
structure RateLimitBudgets.Sound (budgets : RateLimitBudgets) : Prop where
  window : 0 < budgets.windowMs
  positive : ∀ tier, 0 < budgets.limitFor tier
  narrow : ∀ tier, budgets.limitFor tier ≤ u32Max

theorem RateLimitBudgets.Sound.limit {limiter : RateLimiter} (sound : limiter.budgets.Sound) (key : RateLimitKey) :
    0 < limiter.limitForKey key ∧ limiter.limitForKey key ≤ u32Max := by
  cases key with
  | account account epoch tier => exact ⟨sound.positive tier, sound.narrow tier⟩
  | peer peer => exact ⟨sound.positive .read, sound.narrow .read⟩

namespace RateLimiter
variable {limiter : RateLimiter} {key other : RateLimitKey} {timestamps : List Nat} {now sweptAt limit windowMs : Nat}

/-- The times that are kept of a key, none for a key that is not tracked. -/
def stored (limiter : RateLimiter) (key : RateLimitKey) : List Nat := (keyed limiter.windows key).getD []

theorem stored_of_keyed (found : keyed limiter.windows key = some timestamps) : limiter.stored key = timestamps := by
  unfold stored
  rw [found]
  rfl

theorem stored_of_absent (absent : keyed limiter.windows key = none) : limiter.stored key = [] := by
  unfold stored
  rw [absent]
  rfl

/-- Where no time is of the future, what is kept is what is live. -/
theorem decide_eq (past : ∀ time ∈ timestamps, time ≤ now) :
    decide timestamps now limit windowMs =
      if (live windowMs now timestamps).length < limit then
        (⟨true, limit, min (limit - ((live windowMs now timestamps).length + 1)) u32Max,
          addOrMax ((live windowMs now timestamps).min?.getD now) windowMs, none⟩, live windowMs now timestamps ++ [now])
      else
        (⟨false, limit, 0, addOrMax ((live windowMs now timestamps).min?.getD now) windowMs,
          some (addOrMax ((live windowMs now timestamps).min?.getD now) windowMs - now)⟩, live windowMs now timestamps) := by
  have kept : (timestamps.filter fun recorded => if recorded ≤ now then now - recorded < windowMs else true) =
      live windowMs now timestamps := by
    refine List.filter_congr fun time member => ?_
    simp [past time member]
  unfold decide
  rw [kept]

/-- The first request of a key. -/
theorem decide_new (positive : 0 < limit) : decide [] now limit windowMs =
    (⟨true, limit, min (limit - 1) u32Max, addOrMax now windowMs, none⟩, [now]) :=
  (decide_eq (List.forall_mem_nil _)).trans (if_pos positive)

theorem unexpired_getD : (unexpired windowMs now timestamps).getD [] = live windowMs now timestamps := by
  unfold unexpired
  change (if (live windowMs now timestamps).isEmpty then none else some (live windowMs now timestamps)).getD [] = _
  split
  next none => exact (List.isEmpty_iff.1 none).symm
  next => rfl

theorem unexpired_isSome : (unexpired windowMs now timestamps).isSome ↔ live windowMs now timestamps ≠ [] := by
  unfold unexpired
  change (if (live windowMs now timestamps).isEmpty then none else some (live windowMs now timestamps)).isSome ↔ _
  split
  next none => exact iff_of_false nofun fun some => some (List.isEmpty_iff.1 none)
  next some => exact iff_of_true rfl fun none => some (List.isEmpty_iff.2 none)

/-- The limiter in which a new key looks for room. -/
def settled (limiter : RateLimiter) (sweptAt : Nat) : RateLimiter :=
  if limiter.maxKeys ≤ limiter.windows.length then limiter.sweepExpired sweptAt else limiter

def withWindows (limiter : RateLimiter) (windows : List (RateLimitKey × List Nat)) : RateLimiter :=
  { limiter with windows := windows }

/-- How a request is answered: from the window of its key, or for want of room, or in a new window. -/
inductive Answers (limiter : RateLimiter) (key : RateLimitKey) (now sweptAt : Nat) :
    RateLimitDecision × RateLimiter → Prop
  | tracked (timestamps : List Nat) (found : keyed limiter.windows key = some timestamps) :
      Answers limiter key now sweptAt
        ((decide timestamps now (limiter.limitForKey key) limiter.budgets.windowMs).1,
          limiter.withWindows (rewriteKeyed limiter.windows key
            (decide timestamps now (limiter.limitForKey key) limiter.budgets.windowMs).2))
  | refused (absent : keyed limiter.windows key = none)
      (full : limiter.maxKeys ≤ (limiter.settled sweptAt).windows.length) :
      Answers limiter key now sweptAt
        (deniedCapacity now (limiter.limitForKey key) limiter.budgets.windowMs, limiter.settled sweptAt)
  | opened (absent : keyed limiter.windows key = none)
      (room : (limiter.settled sweptAt).windows.length < limiter.maxKeys) :
      Answers limiter key now sweptAt
        ((decide [] now (limiter.limitForKey key) limiter.budgets.windowMs).1,
          (limiter.settled sweptAt).withWindows
            ((key, (decide [] now (limiter.limitForKey key) limiter.budgets.windowMs).2) ::
              (limiter.settled sweptAt).windows))

theorem settled_frame : (limiter.settled sweptAt).budgets = limiter.budgets ∧
    (limiter.settled sweptAt).maxKeys = limiter.maxKeys := by
  unfold settled
  split <;> exact ⟨rfl, rfl⟩

theorem settled_limit : (limiter.settled sweptAt).limitForKey key = limiter.limitForKey key := by
  unfold limitForKey
  rw [settled_frame.1]

theorem settled_keys : ((limiter.settled sweptAt).windows.map Prod.fst).Sublist (limiter.windows.map Prod.fst) := by
  unfold settled
  split
  · exact keys_retainKeyed _
  · exact List.Sublist.refl _

theorem check_answers (limiter : RateLimiter) (key : RateLimitKey) (now sweptAt : Nat) :
    Answers limiter key now sweptAt (limiter.checkAndRecordStatus key now sweptAt) := by
  unfold checkAndRecordStatus
  dsimp only
  split
  next timestamps found => exact .tracked timestamps found
  next absent =>
    change Answers limiter key now sweptAt
      (if (limiter.settled sweptAt).maxKeys ≤ (limiter.settled sweptAt).windows.length then _ else _)
    rw [settled_frame.2]
    split
    next full => exact .refused absent full
    next room => exact .opened absent (Nat.not_le.1 room)

end RateLimiter

namespace Metered
variable {metered : Metered} {key other : RateLimitKey} {past now sweptAt : Nat}

/-- What a limiter keeps, as of a reading of the clock: of each key the allowed times that can still be in a window. -/
structure Kept (past : Nat) (metered : Metered) : Prop where
  sound : metered.limiter.budgets.Sound
  unique : (metered.limiter.windows.map Prod.fst).Nodup
  room : metered.limiter.windows.length ≤ metered.limiter.maxKeys
  before : ∀ key, ∀ time ∈ metered.timesOf key, time ≤ past
  stored : ∀ key, metered.limiter.stored key ⊆ metered.timesOf key
  held : ∀ key now, past ≤ now →
    live metered.limiter.budgets.windowMs now (metered.limiter.stored key) = metered.used key now
  sparse : ∀ key, Sparse metered.limiter.budgets.windowMs (metered.limiter.limitForKey key) (metered.timesOf key)

theorem kept_start {budgets : RateLimitBudgets} (sound : budgets.Sound) (maxKeys : Nat) :
    (start budgets maxKeys).Kept 0 where
  sound := sound
  unique := List.nodup_nil
  room := Nat.zero_le _
  before := fun _ => List.forall_mem_nil _
  stored := fun _ => List.nil_subset _
  held := fun _ _ _ => rfl
  sparse := fun _ _ => Nat.zero_le _

namespace Kept

theorem later (kept : metered.Kept past) (order : past ≤ now) : metered.Kept now where
  sound := kept.sound
  unique := kept.unique
  room := kept.room
  before := fun key time member => (kept.before key time member).trans order
  stored := kept.stored
  held := fun key reading after => kept.held key reading (order.trans after)
  sparse := kept.sparse

theorem stored_past (kept : metered.Kept past) (order : past ≤ now) :
    ∀ time ∈ metered.limiter.stored key, time ≤ now :=
  fun time member => (kept.before key time (kept.stored key member)).trans order

/-- An entry is what is stored of its key. -/
theorem stored_entry (kept : metered.Kept past) {entry : RateLimitKey × List Nat}
    (listed : entry ∈ metered.limiter.windows) : metered.limiter.stored entry.1 = entry.2 := by
  unfold RateLimiter.stored
  rw [keyed_of_mem kept.unique listed]
  rfl

/-- A sweep drops what no window holds any more. -/
theorem sweep (kept : metered.Kept past) (order : past ≤ sweptAt) :
    ({ metered with limiter := metered.limiter.sweepExpired sweptAt } : Metered).Kept sweptAt := by
  have left : ∀ key, (metered.limiter.sweepExpired sweptAt).stored key =
      live metered.limiter.budgets.windowMs sweptAt (metered.limiter.stored key) := by
    intro key
    unfold RateLimiter.sweepExpired RateLimiter.stored
    dsimp only
    rw [keyed_retainKeyed kept.unique]
    cases keyed metered.limiter.windows key with
    | none => rfl
    | some timestamps => exact RateLimiter.unexpired_getD
  constructor
  · exact kept.sound
  · exact (keys_retainKeyed _).nodup kept.unique
  · exact (List.length_filterMap_le _ _).trans kept.room
  · exact (kept.later order).before
  · intro key
    rw [left]
    exact fun time young => kept.stored key (List.mem_filter.1 young).1
  · intro key now after
    rw [left]
    exact (live_live (kept.stored_past order) after).trans (kept.held key now (order.trans after))
  · exact kept.sparse

/-- As many keys are left by a sweep as are active. -/
theorem sweep_length (kept : metered.Kept past) (order : past ≤ sweptAt) :
    (metered.limiter.sweepExpired sweptAt).windows.length = (metered.activeKeys sweptAt).length := by
  unfold RateLimiter.sweepExpired activeKeys
  dsimp only
  rw [length_retainKeyed, List.filter_map, List.length_map]
  refine congrArg List.length (List.filter_congr fun entry listed => ?_)
  dsimp only [Function.comp_apply]
  rw [← kept.held entry.1 sweptAt order, kept.stored_entry listed]
  exact Bool.eq_iff_iff.2 (RateLimiter.unexpired_isSome.trans decide_eq_true_iff.symm)

theorem settle (kept : metered.Kept past) (order : past ≤ sweptAt) :
    ({ metered with limiter := metered.limiter.settled sweptAt } : Metered).Kept sweptAt := by
  unfold RateLimiter.settled
  split
  · exact kept.sweep order
  · exact kept.later order

/-- A new key finds room where the active keys leave it. -/
theorem settled_room (kept : metered.Kept past) (order : past ≤ sweptAt) :
    (metered.limiter.settled sweptAt).windows.length < metered.limiter.maxKeys ↔
      (metered.activeKeys sweptAt).length < metered.limiter.maxKeys := by
  unfold RateLimiter.settled
  split
  next => rw [kept.sweep_length order]
  next room =>
    have fewer : (metered.activeKeys sweptAt).length ≤ (metered.limiter.windows.map Prod.fst).length :=
      List.length_filter_le ..
    rw [List.length_map] at fewer
    omega

end Kept

theorem timesOf_push (metered : Metered) (limiter : RateLimiter) (key other : RateLimitKey) (now : Nat) :
    timesOf ⟨limiter, metered.allowed ++ [(key, now)]⟩ other =
      metered.timesOf other ++ if key = other then [now] else [] := by
  unfold timesOf
  rw [List.filter_append, List.map_append]
  refine congrArg _ ?_
  by_cases same : key = other
  · simp [same]
  · simp [same]

/-- The window of one key is written, and what has been allowed of it is logged. -/
theorem Kept.written (kept : metered.Kept now) {windows : List (RateLimitKey × List Nat)}
    {allowed : List (RateLimitKey × Nat)} {own more : List Nat} (unique : (windows.map Prod.fst).Nodup)
    (room : windows.length ≤ metered.limiter.maxKeys)
    (reads : ∀ other, keyed windows other = if key = other then some own else keyed metered.limiter.windows other)
    (logged : ∀ other, timesOf ⟨metered.limiter.withWindows windows, allowed⟩ other =
      metered.timesOf other ++ if key = other then more else [])
    (fresh : ∀ time ∈ more, time ≤ now) (listed : own ⊆ metered.timesOf key ++ more)
    (young : ∀ reading, now ≤ reading → live metered.limiter.budgets.windowMs reading own =
      live metered.limiter.budgets.windowMs reading (metered.timesOf key ++ more))
    (sparse : Sparse metered.limiter.budgets.windowMs (metered.limiter.limitForKey key) (metered.timesOf key ++ more)) :
    Kept now ⟨metered.limiter.withWindows windows, allowed⟩ := by
  have stored : ∀ other, (metered.limiter.withWindows windows).stored other =
      if key = other then own else metered.limiter.stored other := by
    intro other
    unfold RateLimiter.stored
    refine (congrArg (Option.getD · []) (reads other)).trans ?_
    split <;> rfl
  constructor
  · exact kept.sound
  · exact unique
  · exact room
  · intro other time member
    rw [logged] at member
    rcases List.mem_append.1 member with old | new
    · exact kept.before other time old
    · split at new
      · exact fresh time new
      · cases new
  · intro other
    rw [stored, logged]
    split
    next same =>
      subst same
      exact listed
    next =>
      rw [List.append_nil]
      exact kept.stored other
  · intro other reading after
    unfold used
    rw [stored, logged]
    split
    next same =>
      subst same
      exact young reading after
    next =>
      rw [List.append_nil]
      exact kept.held other reading after
  · intro other
    rw [logged]
    split
    next same =>
      subst same
      exact sparse
    next =>
      rw [List.append_nil]
      exact kept.sparse other

theorem step_check (metered : Metered) (key : RateLimitKey) (now sweptAt : Nat) :
    metered.step (.check key now sweptAt) =
      ⟨(metered.limiter.checkAndRecordStatus key now sweptAt).2,
        if (metered.limiter.checkAndRecordStatus key now sweptAt).1.allowed then metered.allowed ++ [(key, now)]
        else metered.allowed⟩ := rfl

theorem Kept.check (kept : metered.Kept past) (order : past ≤ now) (again : now ≤ sweptAt) (key : RateLimitKey) :
    (metered.step (.check key now sweptAt)).Kept sweptAt := by
  rw [step_check]
  have answers := metered.limiter.check_answers key now sweptAt
  generalize metered.limiter.checkAndRecordStatus key now sweptAt = answer at answers ⊢
  cases answers with
  | tracked timestamps found =>
    have stored := RateLimiter.stored_of_keyed found
    have present := mem_of_keyed found
    have young : live metered.limiter.budgets.windowMs now timestamps = metered.used key now :=
      stored ▸ kept.held key now order
    have current := kept.later order
    have unique := kept.unique
    rw [← @keys_rewriteKeyed _ _ _ key (RateLimiter.decide timestamps now (metered.limiter.limitForKey key)
      metered.limiter.budgets.windowMs).2] at unique
    rw [RateLimiter.decide_eq (stored ▸ kept.stored_past order), young] at unique ⊢
    refine Kept.later ?_ again
    split
    next few =>
      rw [if_pos few] at unique
      refine current.written unique ?_ (fun other => keyed_rewriteKeyed present)
        (fun other => timesOf_push metered _ key other now) ?_ ?_ ?_ ?_
      · exact (List.length_map _).trans_le kept.room
      · exact fun time only => (List.mem_singleton.1 only).le
      · intro time member
        exact List.mem_append.2 ((List.mem_append.1 member).imp_left fun young => (mem_live.1 young).1)
      · intro reading after
        rw [live_append, live_append]
        exact congrArg (· ++ _) (live_live (current.before key) after)
      · exact (kept.sparse key).push (current.before key) few
    next many =>
      rw [if_neg many] at unique
      refine @Kept.written metered key now current _ metered.allowed _ [] unique ?_ (fun other => keyed_rewriteKeyed present)
        ?_ (List.forall_mem_nil _) ?_ ?_ ?_
      · exact (List.length_map _).trans_le kept.room
      · intro other
        rw [ite_self, List.append_nil]
        rfl
      · intro time member
        exact List.mem_append_left _ (mem_live.1 member).1
      · intro reading after
        rw [List.append_nil]
        exact live_live (current.before key) after
      · rw [List.append_nil]
        exact kept.sparse key
  | refused absent full => exact kept.settle (order.trans again)
  | opened absent room =>
    have settled := kept.settle (order.trans again)
    have fresh : key ∉ (metered.limiter.settled sweptAt).windows.map Prod.fst :=
      fun member => keyed_eq_none.1 absent (RateLimiter.settled_keys.subset member)
    -- nothing of an untracked key is in a window any more
    have none : ∀ reading, past ≤ reading →
        live metered.limiter.budgets.windowMs reading (metered.timesOf key) = [] := by
      intro reading after
      refine (kept.held key reading after).symm.trans ?_
      rw [RateLimiter.stored_of_absent absent]
      rfl
    have few : (live metered.limiter.budgets.windowMs now (metered.timesOf key)).length <
        metered.limiter.limitForKey key := by
      rw [none now order]
      exact (kept.sound.limit key).1
    rw [RateLimiter.decide_new (kept.sound.limit key).1]
    refine settled.written (List.nodup_cons.2 ⟨fresh, settled.unique⟩) ?_ (fun other => keyed_cons)
      (fun other => timesOf_push metered _ key other now) ?_ ?_ ?_ ?_
    · exact room.trans_eq RateLimiter.settled_frame.2.symm
    · exact fun time only => (List.mem_singleton.1 only).trans_le again
    · exact List.subset_append_right _ _
    · intro reading after
      dsimp only
      rw [RateLimiter.settled_frame.1, live_append]
      exact (congrArg (· ++ _) (none reading (order.trans (again.trans after)))).symm
    · dsimp only
      rw [RateLimiter.settled_frame.1, RateLimiter.settled_limit]
      exact (kept.sparse key).push ((kept.later order).before key) few

/-- A run between steady readings. -/
theorem Kept.run (kept : metered.Kept past) {calls : List RateCall}
    (order : (past :: readingsOf calls).Pairwise (· ≤ ·)) (reached : ∀ reading ∈ past :: readingsOf calls, reading ≤ now) :
    (metered.run calls).Kept now := by
  induction calls generalizing metered past with
  | nil => exact kept.later (reached past List.mem_cons_self)
  | cons first rest ih =>
    cases first with
    | check key reading sweptAt =>
      obtain ⟨after, ordered⟩ := List.pairwise_cons.1 order
      obtain ⟨again, later⟩ := List.pairwise_cons.1 ordered
      refine ih (kept.check (after reading List.mem_cons_self) (again sweptAt List.mem_cons_self) key) later ?_
      exact fun time member => reached time (List.mem_cons_of_mem _ (List.mem_cons_of_mem _ member))
    | sweep reading =>
      obtain ⟨after, later⟩ := List.pairwise_cons.1 order
      refine ih (kept.sweep (after reading List.mem_cons_self)) later ?_
      exact fun time member => reached time (List.mem_cons_of_mem _ member)

/-- The readings of a steady run are in order from the start of the clock. -/
theorem Steady.kept {budgets : RateLimitBudgets} (sound : budgets.Sound) (maxKeys : Nat) {calls : List RateCall}
    {more : List Nat} (steady : Steady budgets.windowMs (readingsOf calls ++ more))
    (reached : ∀ reading ∈ readingsOf calls, reading ≤ now) : ((start budgets maxKeys).run calls).Kept now := by
  refine (kept_start sound maxKeys).run (List.pairwise_cons.2 ⟨fun _ _ => Nat.zero_le _, ?_⟩) ?_
  · exact (List.pairwise_append.1 steady.ordered).1
  · intro reading member
    rcases List.mem_cons.1 member with rfl | listed
    · exact Nat.zero_le _
    · exact reached reading listed

theorem step_frame (metered : Metered) (call : RateCall) :
    (metered.step call).limiter.budgets = metered.limiter.budgets ∧
      (metered.step call).limiter.maxKeys = metered.limiter.maxKeys ∧
        ∀ key, ∃ more, (metered.step call).timesOf key = metered.timesOf key ++ more := by
  cases call with
  | check key now sweptAt =>
    rw [step_check]
    have answers := metered.limiter.check_answers key now sweptAt
    generalize metered.limiter.checkAndRecordStatus key now sweptAt = answer at answers ⊢
    have grows : ∀ limiter other, ∃ more,
        timesOf ⟨limiter, if answer.1.allowed then metered.allowed ++ [(key, now)] else metered.allowed⟩ other =
          metered.timesOf other ++ more := by
      intro limiter other
      split
      · exact ⟨_, timesOf_push metered limiter key other now⟩
      · exact ⟨[], (List.append_nil _).symm⟩
    cases answers with
    | tracked timestamps found => exact ⟨rfl, rfl, grows _⟩
    | refused absent full => exact ⟨RateLimiter.settled_frame.1, RateLimiter.settled_frame.2, grows _⟩
    | opened absent room => exact ⟨RateLimiter.settled_frame.1, RateLimiter.settled_frame.2, grows _⟩
  | sweep now => exact ⟨rfl, rfl, fun _ => ⟨[], (List.append_nil _).symm⟩⟩

theorem run_frame (metered : Metered) (calls : List RateCall) :
    (metered.run calls).limiter.budgets = metered.limiter.budgets ∧
      (metered.run calls).limiter.maxKeys = metered.limiter.maxKeys ∧
        ∀ key, ∃ more, (metered.run calls).timesOf key = metered.timesOf key ++ more := by
  induction calls generalizing metered with
  | nil => exact ⟨rfl, rfl, fun _ => ⟨[], (List.append_nil _).symm⟩⟩
  | cons first rest ih =>
    obtain ⟨budgets, ceiling, grows⟩ := metered.step_frame first
    obtain ⟨sameBudgets, sameCeiling, later⟩ := ih (metered.step first)
    refine ⟨sameBudgets.trans budgets, sameCeiling.trans ceiling, fun key => ?_⟩
    obtain ⟨more, added⟩ := grows key
    obtain ⟨last, more'⟩ := later key
    exact ⟨more ++ last, by rw [show metered.run (first :: rest) = (metered.step first).run rest from rfl, more', added,
      List.append_assoc]⟩

/-- A request is allowed exactly where its key has budget left and a place among the tracked keys. -/
theorem Kept.allowed_iff (kept : metered.Kept past) (order : past ≤ now) (again : now ≤ sweptAt) (key : RateLimitKey) :
    (metered.limiter.checkAndRecordStatus key now sweptAt).1.allowed = true ↔
      (metered.used key now).length < metered.limiter.limitForKey key ∧
        (metered.Tracked key ∨ (metered.activeKeys sweptAt).length < metered.limiter.maxKeys) := by
  have young := kept.held key now order
  have room := kept.settled_room (order.trans again)
  have answers := metered.limiter.check_answers key now sweptAt
  generalize metered.limiter.checkAndRecordStatus key now sweptAt = answer at answers ⊢
  have untracked : keyed metered.limiter.windows key = none →
      ¬metered.Tracked key ∧ (metered.used key now).length < metered.limiter.limitForKey key := by
    intro absent
    refine ⟨keyed_eq_none.1 absent, ?_⟩
    rw [← young, RateLimiter.stored_of_absent absent]
    exact (kept.sound.limit key).1
  cases answers with
  | tracked timestamps found =>
    have tracked : metered.Tracked key := mem_of_keyed found
    have stored := RateLimiter.stored_of_keyed found
    rw [stored] at young
    dsimp only
    rw [RateLimiter.decide_eq (stored ▸ kept.stored_past order), young]
    split
    next few => exact iff_of_true rfl ⟨few, Or.inl tracked⟩
    next many => exact iff_of_false Bool.false_ne_true fun both => many both.1
  | refused absent full =>
    refine iff_of_false Bool.false_ne_true fun both => ?_
    rcases both.2 with tracked | space
    · exact (untracked absent).1 tracked
    · exact Nat.not_lt.2 full (room.2 space)
  | opened absent space =>
    rw [RateLimiter.decide_new (kept.sound.limit key).1]
    exact iff_of_true rfl ⟨(untracked absent).2, Or.inr (room.1 space)⟩

end Metered

namespace RateLimiter
variable {limiter : RateLimiter} {key : RateLimitKey} {now sweptAt : Nat}

/-- How many of a number of further requests of a key are allowed, at the same readings of the clock. -/
def repeated (limiter : RateLimiter) (key : RateLimitKey) (now sweptAt : Nat) : Nat → Nat
  | 0 => 0
  | more + 1 =>
    let (decision, next) := limiter.checkAndRecordStatus key now sweptAt
    (if decision.allowed then 1 else 0) + next.repeated key now sweptAt more

theorem repeated_succ (limiter : RateLimiter) (key : RateLimitKey) (now sweptAt more : Nat) :
    limiter.repeated key now sweptAt (more + 1) =
      (if (limiter.checkAndRecordStatus key now sweptAt).1.allowed then 1 else 0) +
        (limiter.checkAndRecordStatus key now sweptAt).2.repeated key now sweptAt more := rfl

/-- The next ones are allowed until the window of the key is full. -/
theorem repeated_tracked {timestamps : List Nat} (wide : 0 < limiter.budgets.windowMs)
    (found : keyed limiter.windows key = some timestamps)
    (young : live limiter.budgets.windowMs now timestamps = timestamps) (more : Nat) :
    limiter.repeated key now sweptAt more = min more (limiter.limitForKey key - timestamps.length) := by
  induction more generalizing limiter timestamps with
  | zero => exact (Nat.zero_min _).symm
  | succ more ih =>
    have past : ∀ time ∈ timestamps, time ≤ now := by
      intro time member
      rw [← young] at member
      exact (mem_live.1 member).2.1
    have present := mem_of_keyed found
    rw [repeated_succ]
    have answers := limiter.check_answers key now sweptAt
    generalize limiter.checkAndRecordStatus key now sweptAt = answer at answers ⊢
    cases answers with
    | tracked held again =>
      obtain rfl : timestamps = held := Option.some.inj (found.symm.trans again)
      rw [decide_eq past, young]
      have written : ∀ own, keyed (rewriteKeyed limiter.windows key own) key = some own :=
        fun own => (keyed_rewriteKeyed present).trans (if_pos rfl)
      split
      next few =>
        have next := @ih (limiter.withWindows (rewriteKeyed limiter.windows key (timestamps ++ [now]))) _ wide
          (written _) (live_append.trans (congrArg₂ (· ++ ·) young (live_self wide)))
        have same : (limiter.withWindows (rewriteKeyed limiter.windows key (timestamps ++ [now]))).limitForKey key =
          limiter.limitForKey key := rfl
        rw [same, List.length_append, List.length_singleton] at next
        dsimp only
        rw [next, if_pos rfl]
        omega
      next many =>
        have next := @ih (limiter.withWindows (rewriteKeyed limiter.windows key timestamps)) _ wide (written _) young
        have same : (limiter.withWindows (rewriteKeyed limiter.windows key timestamps)).limitForKey key =
          limiter.limitForKey key := rfl
        rw [same] at next
        dsimp only
        rw [next, if_neg Bool.false_ne_true]
        omega
    | refused absent => exact absurd (found.symm.trans absent) nofun
    | opened absent => exact absurd (found.symm.trans absent) nofun

theorem unexpired_again {held value : List Nat} {windowMs : Nat} (kept : unexpired windowMs now held = some value) :
    unexpired windowMs now value = some value := by
  have young : live windowMs now held = value := by
    rw [← unexpired_getD, kept]
    rfl
  have some : live windowMs now held ≠ [] := unexpired_isSome.1 (by rw [kept]; rfl)
  unfold unexpired
  change (if (live windowMs now value).isEmpty then none else .some (live windowMs now value)) = _
  rw [← young, live_again, if_neg fun none => some (List.isEmpty_iff.1 none)]

theorem settled_settled : (limiter.settled sweptAt).settled sweptAt = limiter.settled sweptAt := by
  have again : (limiter.sweepExpired sweptAt).sweepExpired sweptAt = limiter.sweepExpired sweptAt := by
    unfold sweepExpired
    dsimp only
    rw [retainKeyed_again fun held value kept => unexpired_again kept]
  by_cases full : limiter.maxKeys ≤ limiter.windows.length
  · have swept : limiter.settled sweptAt = limiter.sweepExpired sweptAt := if_pos full
    rw [swept]
    unfold settled
    split
    · exact again
    · rfl
  · have same : limiter.settled sweptAt = limiter := if_neg full
    rw [same, same]

/-- Without room for the key none is allowed. -/
theorem repeated_refused (absent : keyed limiter.windows key = none)
    (full : limiter.maxKeys ≤ (limiter.settled sweptAt).windows.length) (more : Nat) :
    (limiter.settled sweptAt).repeated key now sweptAt more = 0 := by
  induction more with
  | zero => rfl
  | succ more ih =>
    have missing : keyed (limiter.settled sweptAt).windows key = none :=
      keyed_eq_none.2 fun member => keyed_eq_none.1 absent (settled_keys.subset member)
    rw [repeated_succ]
    have answers := (limiter.settled sweptAt).check_answers key now sweptAt
    generalize (limiter.settled sweptAt).checkAndRecordStatus key now sweptAt = answer at answers ⊢
    cases answers with
    | tracked held found => exact absurd (found.symm.trans missing) nofun
    | refused =>
      rw [settled_settled]
      dsimp only
      rw [ih]
      rfl
    | opened _ room =>
      rw [settled_settled, settled_frame.2] at room
      exact absurd full (Nat.not_le.2 room)

end RateLimiter

/-- What a request finds in a run, and what it is told. -/
structure Metering (before : List RateCall) (reached : Metered) (key : RateLimitKey) (now sweptAt : Nat) : Prop where
  allowed : (reached.limiter.checkAndRecordStatus key now sweptAt).1.allowed = true ↔
    (reached.used key now).length < reached.limiter.limitForKey key ∧
      (reached.Tracked key ∨ (reached.activeKeys sweptAt).length < reached.limiter.maxKeys)
  remaining : ∀ more, (reached.limiter.checkAndRecordStatus key now sweptAt).2.repeated key now sweptAt more =
    min more (reached.limiter.checkAndRecordStatus key now sweptAt).1.remaining
  retry : reached.Tracked key → (reached.limiter.checkAndRecordStatus key now sweptAt).1.allowed = false →
    ∃ wait, (reached.limiter.checkAndRecordStatus key now sweptAt).1.retryAfterMs = some wait ∧ 0 < wait ∧
      ∀ later time sweptAgain,
        Steady reached.limiter.budgets.windowMs
          (readingsOf (before ++ .check key now sweptAt :: later ++ [.check key time sweptAgain])) →
        let after := (reached.step (.check key now sweptAt)).run later
        (time < now + wait → (after.limiter.checkAndRecordStatus key time sweptAgain).1.allowed = false) ∧
          (time = now + wait → after.timesOf key = reached.timesOf key → after.Tracked key →
            (after.limiter.checkAndRecordStatus key time sweptAgain).1.allowed = true)

namespace Metered
variable {metered : Metered} {key : RateLimitKey} {past now sweptAt : Nat}

theorem Kept.remaining (kept : metered.Kept past) (order : past ≤ now) (key : RateLimitKey) (more : Nat) :
    (metered.limiter.checkAndRecordStatus key now sweptAt).2.repeated key now sweptAt more =
      min more (metered.limiter.checkAndRecordStatus key now sweptAt).1.remaining := by
  have young := kept.held key now order
  have narrow := (kept.sound.limit key).2
  have wide := kept.sound.window
  have answers := metered.limiter.check_answers key now sweptAt
  generalize metered.limiter.checkAndRecordStatus key now sweptAt = answer at answers ⊢
  cases answers with
  | tracked timestamps found =>
    have stored := RateLimiter.stored_of_keyed found
    have present := mem_of_keyed found
    rw [stored] at young
    have written : ∀ own, keyed (rewriteKeyed metered.limiter.windows key own) key = some own :=
      fun own => (keyed_rewriteKeyed present).trans (if_pos rfl)
    rw [RateLimiter.decide_eq (stored ▸ kept.stored_past order), young]
    split
    next few =>
      have next := @RateLimiter.repeated_tracked
        (metered.limiter.withWindows (rewriteKeyed metered.limiter.windows key (metered.used key now ++ [now])))
        key now sweptAt _ wide (written _)
        (live_append.trans (congrArg₂ (· ++ ·) live_again (live_self wide))) more
      rw [List.length_append, List.length_singleton] at next
      refine next.trans (congrArg (min more) ?_)
      exact (Nat.min_eq_left ((Nat.sub_le _ _).trans narrow)).symm
    next many =>
      have next := @RateLimiter.repeated_tracked
        (metered.limiter.withWindows (rewriteKeyed metered.limiter.windows key (metered.used key now)))
        key now sweptAt _ wide (written _) live_again more
      refine next.trans (congrArg (min more) ?_)
      exact Nat.sub_eq_zero_of_le (Nat.not_lt.1 many)
  | refused absent full =>
    refine (RateLimiter.repeated_refused absent full more).trans ?_
    exact (Nat.min_zero more).symm
  | opened absent room =>
    rw [RateLimiter.decide_new (kept.sound.limit key).1]
    have next := @RateLimiter.repeated_tracked
      ((metered.limiter.settled sweptAt).withWindows ((key, [now]) :: (metered.limiter.settled sweptAt).windows))
      key now sweptAt [now] (wide.trans_eq (congrArg RateLimitBudgets.windowMs RateLimiter.settled_frame.1.symm))
      (keyed_cons.trans (if_pos rfl)) (live_self (wide.trans_eq
        (congrArg RateLimitBudgets.windowMs RateLimiter.settled_frame.1.symm))) more
    refine next.trans (congrArg (min more) ?_)
    refine (congrArg (· - 1) RateLimiter.settled_limit).trans ?_
    exact (Nat.min_eq_left ((Nat.sub_le _ _).trans narrow)).symm

/-- A tracked key is denied with its window full, until the oldest of its times leaves it. -/
theorem Kept.denied (kept : metered.Kept past) (order : past ≤ now) (tracked : metered.Tracked key)
    (denied : (metered.limiter.checkAndRecordStatus key now sweptAt).1.allowed = false) :
    metered.limiter.limitForKey key ≤ (metered.used key now).length ∧ ∃ oldest, oldest ∈ metered.used key now ∧
      (∀ time ∈ metered.used key now, oldest ≤ time) ∧
        (metered.limiter.checkAndRecordStatus key now sweptAt).1.retryAfterMs =
          some (addOrMax oldest metered.limiter.budgets.windowMs - now) := by
  have young := kept.held key now order
  have positive := (kept.sound.limit key).1
  have answers := metered.limiter.check_answers key now sweptAt
  generalize metered.limiter.checkAndRecordStatus key now sweptAt = answer at answers denied ⊢
  cases answers with
  | tracked timestamps found =>
    have stored := RateLimiter.stored_of_keyed found
    rw [stored] at young
    rw [RateLimiter.decide_eq (stored ▸ kept.stored_past order), young] at denied ⊢
    split at denied
    next few => cases denied
    next many =>
      rw [if_neg many]
      have full := Nat.not_lt.1 many
      have some : metered.used key now ≠ [] := List.ne_nil_of_length_pos (positive.trans_le full)
      obtain ⟨oldest, least⟩ := Option.isSome_iff_exists.1 (List.isSome_min?_of_ne_nil some)
      obtain ⟨member, bound⟩ := List.min?_eq_some_iff.1 least
      refine ⟨full, oldest, member, bound, ?_⟩
      rw [least]
      rfl
  | refused absent => exact absurd tracked (keyed_eq_none.1 absent)
  | opened absent => exact absurd tracked (keyed_eq_none.1 absent)

/-- The hint is exact: before it every retry is denied, and at it one is allowed. -/
theorem Kept.retry (kept : metered.Kept past) (order : past ≤ now)
    (fits : now + metered.limiter.budgets.windowMs ≤ u64Max) (tracked : metered.Tracked key)
    (denied : (metered.limiter.checkAndRecordStatus key now sweptAt).1.allowed = false) :
    ∃ wait, (metered.limiter.checkAndRecordStatus key now sweptAt).1.retryAfterMs = some wait ∧ 0 < wait ∧
      ∀ later time sweptAgain reading, now ≤ time → time ≤ sweptAgain → reading ≤ time →
        let after := (metered.step (.check key now sweptAt)).run later
        after.Kept reading →
        (time < now + wait → (after.limiter.checkAndRecordStatus key time sweptAgain).1.allowed = false) ∧
          (time = now + wait → after.timesOf key = metered.timesOf key → after.Tracked key →
            (after.limiter.checkAndRecordStatus key time sweptAgain).1.allowed = true) := by
  obtain ⟨full, oldest, member, least, hint⟩ := kept.denied order tracked denied
  obtain ⟨_, past', young⟩ := mem_live.1 member
  have bounded : addOrMax oldest metered.limiter.budgets.windowMs = oldest + metered.limiter.budgets.windowMs := by
    unfold addOrMax
    exact if_pos ((Nat.add_le_add_right past' _).trans fits)
  rw [bounded] at hint
  refine ⟨_, hint, by omega, ?_⟩
  intro later time sweptAgain reading onward ends before after held
  have allowed := held.allowed_iff before ends key
  obtain ⟨budgets, _, _⟩ := metered.step_frame (.check key now sweptAt)
  obtain ⟨sameBudgets, _, grows⟩ := (metered.step (.check key now sweptAt)).run_frame later
  have same : after.limiter.budgets = metered.limiter.budgets := sameBudgets.trans budgets
  have limit : after.limiter.limitForKey key = metered.limiter.limitForKey key := by
    unfold RateLimiter.limitForKey
    rw [same]
  have unlogged : (metered.step (.check key now sweptAt)).timesOf key = metered.timesOf key := by
    rw [step_check, denied]
    rfl
  unfold used at full member least allowed
  rw [limit, same] at allowed
  constructor
  · intro early
    obtain ⟨more, grown⟩ := grows key
    rw [unlogged] at grown
    rw [show after.timesOf key = metered.timesOf key ++ more from grown] at allowed
    have stay : (live metered.limiter.budgets.windowMs now (metered.timesOf key)).length ≤
        (live metered.limiter.budgets.windowMs time (metered.timesOf key ++ more)).length :=
      live_le_before least onward (by omega)
    refine Bool.eq_false_iff.2 fun yes => ?_
    exact absurd (allowed.1 yes).1 (Nat.not_lt.2 (full.trans stay))
  · rintro rfl unchanged present
    rw [unchanged] at allowed
    refine allowed.2 ⟨?_, Or.inl present⟩
    have leaves := live_lt_at ((kept.later order).before key) member
    have bounded := (kept.sparse key).live_le now
    rw [show now + (oldest + metered.limiter.budgets.windowMs - now) = oldest + metered.limiter.budgets.windowMs by omega]
    omega

theorem readingsOf_append (calls more : List RateCall) : readingsOf (calls ++ more) = readingsOf calls ++ readingsOf more :=
  List.flatMap_append

/-- Over any calls on a steady clock: no window holds more of a key than its limit, no more keys are tracked than the
ceiling, and a request is answered as `Metering` says. -/
theorem run_metered {budgets : RateLimitBudgets} (sound : budgets.Sound) (maxKeys : Nat) {calls : List RateCall}
    (steady : Steady budgets.windowMs (readingsOf calls)) :
    let reached := (start budgets maxKeys).run calls
    reached.limiter.budgets = budgets ∧
      (∀ key, Sparse budgets.windowMs (reached.limiter.limitForKey key) (reached.timesOf key)) ∧
        reached.limiter.trackedKeys ≤ max maxKeys 1 ∧
          ∀ key now sweptAt, Steady budgets.windowMs (readingsOf (calls ++ [.check key now sweptAt])) →
            Metering calls reached key now sweptAt := by
  intro reached
  obtain ⟨same, ceiling, _⟩ := (start budgets maxKeys).run_frame calls
  have sameBudgets : reached.limiter.budgets = budgets := same
  have kept : reached.Kept u64Max := by
    have whole : Steady budgets.windowMs (readingsOf calls ++ []) := (List.append_nil _).symm ▸ steady
    refine Steady.kept sound maxKeys whole ?_
    exact fun reading member => (Nat.le_add_right _ _).trans (steady.fits reading member)
  refine ⟨sameBudgets, ?_, kept.room.trans_eq ceiling, ?_⟩
  · intro key
    rw [← sameBudgets]
    exact kept.sparse key
  · intro key now sweptAt further
    rw [readingsOf_append] at further
    obtain ⟨_, both, earlier⟩ := List.pairwise_append.1 further.ordered
    have again : now ≤ sweptAt := (List.pairwise_cons.1 both).1 sweptAt List.mem_cons_self
    have asked : now ∈ readingsOf [.check key now sweptAt] := List.mem_cons_self
    have current : reached.Kept now :=
      Steady.kept sound maxKeys further fun reading member => earlier reading member now asked
    refine ⟨current.allowed_iff (le_refl _) again key, current.remaining (le_refl _) key, ?_⟩
    intro tracked denied
    have fits := further.fits now (List.mem_append_right _ asked)
    rw [← sameBudgets] at fits
    obtain ⟨wait, hint, positive, retried⟩ := current.retry (le_refl _) fits tracked denied
    refine ⟨wait, hint, positive, ?_⟩
    intro later time sweptAgain steadily
    rw [sameBudgets, readingsOf_append] at steadily
    obtain ⟨_, last, before⟩ := List.pairwise_append.1 steadily.ordered
    have ends : time ≤ sweptAgain := (List.pairwise_cons.1 last).1 sweptAgain List.mem_cons_self
    have retriedAt : time ∈ readingsOf [.check key time sweptAgain] := List.mem_cons_self
    have onward : now ≤ time := before now (by rw [readingsOf_append]; simp [readingsOf, RateCall.readings]) time retriedAt
    have held : (((start budgets maxKeys).run (calls ++ .check key now sweptAt :: later))).Kept time :=
      Steady.kept sound maxKeys steadily fun reading member => before reading member time retriedAt
    have split : (start budgets maxKeys).run (calls ++ .check key now sweptAt :: later) =
        (reached.step (.check key now sweptAt)).run later := List.foldl_append
    rw [split] at held
    exact retried later time sweptAgain time onward ends (le_refl _) held

/-- Two requests of a trader fill a budget of two, and a peer takes the other of two places. -/
theorem run_metered_filled : Metering
    [.check (.account "alice" 0 .trade) 0 0, .check (.account "alice" 0 .trade) 400 400, .check (.peer "host") 600 600]
    ((start ⟨1000, 3, 2, 1⟩ 2).run
      [.check (.account "alice" 0 .trade) 0 0, .check (.account "alice" 0 .trade) 400 400, .check (.peer "host") 600 600])
    (.account "alice" 0 .trade) 800 800 := by
  have sound : (⟨1000, 3, 2, 1⟩ : RateLimitBudgets).Sound :=
    ⟨by decide, fun tier => by cases tier <;> decide, fun tier => by cases tier <;> decide⟩
  have steady : Steady 1000 (readingsOf [.check (.account "alice" 0 .trade) 0 0, .check (.account "alice" 0 .trade) 400 400,
      .check (.peer "host") 600 600]) := ⟨by decide, by decide⟩
  exact (run_metered sound 2 steady).2.2.2 _ 800 800 ⟨by decide, by decide⟩

end Metered

end Fauxchange.Auth
