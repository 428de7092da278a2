import OpenRusty.Scheduler.Effects

/-!
This module contains the capacity of the nodes under the scheduler plugin: how many live records name a peer.
A run that writes its record on a count that still holds keeps the cap; nothing makes it recount when other
runs have written in the meantime.
-/

namespace OpenRusty
namespace Scheduler

def countOn (records : List (Bytes × Bytes)) (peer : Nat) : Nat :=
  records.countP fun kv => recordPeer kv.2 == some peer

def liveOn (s : HostState) (peer t : Nat) : Nat := countOn (s.kvScan affPrefix t) peer

def othersOn (s : HostState) (key : Bytes) (peer t : Nat) : Nat :=
  countOn ((s.kvScan affPrefix t).filter fun kv => kv.1 ≠ key) peer

def isRecordOn (peer t : Nat) (key : Bytes) (e : KvEntry) : Bool :=
  affPrefix.isPrefixOf key && !isExpired e.expiresAt t && recordPeer e.value == some peer

def recordsOn (peer t : Nat) (key : Bytes) (e : KvEntry) : Nat := (isRecordOn peer t key e).toNat

theorem recordsOn_le (peer t : Nat) (key : Bytes) (e : KvEntry) : recordsOn peer t key e ≤ 1 := by
  exact Bool.toNat_le _

theorem recordsOn_mono (peer : Nat) {t t' : Nat} (h : t ≤ t') (key : Bytes) (e : KvEntry)
    : recordsOn peer t' key e ≤ recordsOn peer t key e := by
  unfold recordsOn isRecordOn
  cases hlive : isExpired e.expiresAt t with
  | true =>
    rw [isExpired_mono hlive h]
  | false =>
    cases isExpired e.expiresAt t' with
    | true => simp
    | false => exact Nat.le_refl _

theorem sum_toNat {α : Type} (p : α → Bool) (l : List α) : (l.map fun a => (p a).toNat).sum = l.countP p := by
  induction l with
  | nil => rfl
  | cons a l ih =>
    rw [List.map_cons, List.sum_cons, ih]
    cases h : p a with
    | true => rw [List.countP_cons_of_pos h, Bool.toNat_true, Nat.add_comm]
    | false => rw [List.countP_cons_of_neg (by simp [h]), Bool.toNat_false, Nat.zero_add]

theorem countP_kvScan (s : HostState) (t : Nat) (p : Bytes × Bytes → Bool)
    : (s.kvScan affPrefix t).countP p
        =
      s.kv.entries.countP fun e =>
        p (e.1, e.2.value) && (affPrefix.isPrefixOf e.1 && !isExpired e.2.expiresAt t) := by
  unfold HostState.kvScan
  dsimp only
  rw [(List.perm_insertionSort _ _).countP_eq, List.countP_map, List.countP_filter]
  rfl

theorem liveOn_eq (s : HostState) (peer t : Nat) : liveOn s peer t = s.kv.weight (recordsOn peer t) := by
  unfold liveOn countOn AList.weight recordsOn
  rw [countP_kvScan, sum_toNat]
  congr 1
  funext e
  exact Bool.and_comm _ _

theorem othersOn_eq (s : HostState) (key : Bytes) (peer t : Nat)
    : othersOn s key peer t = (s.kv.erase key).weight (recordsOn peer t) := by
  unfold othersOn countOn AList.weight recordsOn
  rw [List.countP_filter, countP_kvScan, AList.erase_eq_retain, sum_toNat]
  unfold AList.retain
  rw [List.countP_filter]
  congr 1
  funext e
  unfold isRecordOn
  cases recordPeer e.2.value == some peer <;> cases affPrefix.isPrefixOf e.1 <;>
    cases isExpired e.2.expiresAt t <;> simp

theorem weight_mono {f g : Bytes → KvEntry → Nat} (h : ∀ key e, f key e ≤ g key e)
    (m : AList fun _ : Bytes => KvEntry)
    : m.weight f ≤ m.weight g := by
  unfold AList.weight
  apply List.sum_le_sum
  intro e _
  exact h e.1 e.2

namespace Stage

def Sound (n : Nat) (t : Stage) : Prop :=
  match t with
  | .renew _ _ idx => idx < 2 ^ 32
  | .record _ active pick => pick < 2 ^ 32 ∧ active.getD pick 0 < n
  | _ => True

theorem sound_start (n : Nat) (call : Call) : (start call).Sound n := by
  unfold start
  split
  . unfold onBalancer
    split
    . trivial
    . trivial
  . trivial

theorem sound_gatherAndPick (n : Nat) (task : Bytes) (peers : Peers) : (gatherAndPick task peers).Sound n := by
  unfold gatherAndPick
  split
  . trivial
  . trivial

theorem sound_afterStamps {cfg : Settings} (hcap : cap cfg ≠ 0) (task : Bytes) (peers : Peers)
    (active stamps : List Nat)
    : (afterStamps cfg task peers active stamps).Sound (cap cfg) := by
  unfold afterStamps
  split
  . trivial
  . split
    . trivial
    . next pick hpick =>
      rcases isHealthy_of_choose hpick with ⟨hhealthy, hfits⟩
      refine ⟨Peers.lt_word_of_isHealthy hhealthy, ?_⟩
      rcases hfits with hzero | hroom
      . exact absurd hzero hcap
      . exact hroom

end Stage

theorem act_sound {cfg : Settings} (hcap : cap cfg ≠ 0) {s s' : Store} {t t' : Stage} {x : Input}
    (h : act cfg s t x = some (s', t'))
    : t'.Sound (cap cfg) := by
  cases t with
  | getAff task peers =>
    unfold act at h
    dsimp only at h
    split at h
    . next idx hidx =>
      cases h
      exact Peers.lt_word_of_isHealthy (isHealthy_of_affinityPeer hidx)
    . cases h
      exact Stage.sound_gatherAndPick _ _ _
  | stick task peers idx =>
    cases h
    split
    . trivial
    . exact Stage.sound_gatherAndPick _ _ _
  | schedTs task peers active stamps =>
    cases h
    exact Stage.sound_afterStamps hcap _ _ _ _
  | scanBegin task peers =>
    unfold act at h
    dsimp only at h
    split at h
    . cases h
      trivial
    . cases h
      trivial
  | scanNext task peers cursor active =>
    unfold act at h
    dsimp only at h
    split at h
    . cases h
      trivial
    . split at h
      . cases h
        trivial
      . cases h
        trivial
  | _ => cases h <;> trivial

/-!
A step that writes a record on a count that still holds keeps the cap.
-/

structure Capped (n : Nat) (s : Store) : Prop where
  le : ∀ peer t, s.clock ≤ t → liveOn s.plugin.toHostState peer t ≤ n

def Shrinks (s s' : Store) : Prop := ∀ f, s'.plugin.kv.weight f ≤ s.plugin.kv.weight f

theorem Capped.of_shrinks {n : Nat} {s s' : Store} (h : Capped n s) (hshrinks : Shrinks s s')
    (hclock : s.clock ≤ s'.clock)
    : Capped n s' where
  le := by
    intro peer t ht
    have hle := h.le peer t (Nat.le_trans hclock ht)
    rw [liveOn_eq] at hle ⊢
    exact Nat.le_trans (hshrinks _) hle

theorem othersOn_mono (s : HostState) (key : Bytes) (peer : Nat) {t t' : Nat} (h : t ≤ t')
    : othersOn s key peer t' ≤ othersOn s key peer t := by
  rw [othersOn_eq, othersOn_eq]
  exact weight_mono (recordsOn_mono peer h) _

theorem othersOn_lt_of_live {s : HostState} {task : Bytes} {peer t : Nat}
    (h : (s.live (affKey task) t).bind recordPeer = some peer)
    : othersOn s (affKey task) peer t < liveOn s peer t := by
  rcases Option.bind_eq_some_iff.mp h with ⟨val, hlive, hpeer⟩
  rcases HostState.live_eq_some.mp hlive with ⟨e, hlook, hexpired, rfl⟩
  have herase := AList.weight_erase (recordsOn peer t) s.kv (affKey task)
  have hself : recordsOn peer t (affKey task) e = 1 := by
    simp [recordsOn, isRecordOn, affKey, hexpired, hpeer]
  rw [AList.weightAt_of_lookup hlook, hself] at herase
  rw [othersOn_eq, liveOn_eq]
  omega

theorem Capped.kvSet {n : Nat} {s : Store} (h : Capped n s) {nowMs : Nat} (hclock : s.clock ≤ nowMs)
    {key val : Bytes} (ttlMs : Int)
    (hroom : ∀ peer, affPrefix <+: key → recordPeer val = some peer →
      othersOn s.plugin.toHostState key peer nowMs < n)
    : Capped n (s.kvSet key val ttlMs nowMs) where
  le := by
    intro peer t ht
    have ht : nowMs ≤ t := ht
    have hbefore := h.le peer t (Nat.le_trans hclock ht)
    rw [liveOn_eq] at hbefore ⊢
    rcases kvSet_cases s key val ttlMs nowMs with ⟨-, heq⟩ | ⟨-, heq⟩
    . rw [heq]
      exact hbefore
    . have herase := AList.weight_erase (recordsOn peer t) s.plugin.kv key
      rw [heq, AList.weight_insert]
      cases hrecord : isRecordOn peer t key { value := val, expiresAt := expiryOf ttlMs nowMs } with
      | true =>
        have hothers := othersOn_mono s.plugin.toHostState key peer ht
        have hle := recordsOn_le peer t key { value := val, expiresAt := expiryOf ttlMs nowMs }
        simp only [isRecordOn, Bool.and_eq_true, List.isPrefixOf_iff_prefix, beq_iff_eq] at hrecord
        have hlt := hroom peer hrecord.1.1 hrecord.2
        rw [othersOn_eq] at hothers
        omega
      | false =>
        unfold recordsOn at herase hbefore ⊢
        rw [hrecord, Bool.toNat_false]
        omega

namespace Stage

def UpToDate (s : HostState) (nowMs : Nat) (t : Stage) : Prop :=
  match t with
  | .renew task _ idx => (s.live (affKey task) nowMs).bind recordPeer = some idx
  | .record task active pick => othersOn s (affKey task) pick nowMs ≤ active.getD pick 0
  | _ => True

instance (s : HostState) (nowMs : Nat) (t : Stage) : Decidable (t.UpToDate s nowMs) := by
  unfold UpToDate
  split <;> exact inferInstance

end Stage

theorem Capped.act {cfg : Settings} {s s' : Store} {t t' : Stage} {x : Input}
    (h : Capped (cap cfg) s) (hsound : t.Sound (cap cfg)) (hclock : s.clock ≤ x.nowMs)
    (hdate : t.UpToDate s.plugin.toHostState x.nowMs) (hact : act cfg s t x = some (s', t'))
    : Capped (cap cfg) s' := by
  rcases act_effect hact with ⟨hnow, heffect⟩
  cases hwrites : t.writes with
  | none =>
    rw [hwrites] at heffect
    exact h.of_shrinks heffect.weight_le (by omega)
  | some kv =>
    rcases kv with ⟨key, val⟩
    rw [hwrites] at heffect
    dsimp only at heffect
    rw [heffect]
    apply h.kvSet hclock
    intro peer hkey hpeer
    cases t with
    | renew task peers idx =>
      cases hwrites
      rw [recordPeer_asciiU64 hsound] at hpeer
      cases hpeer
      exact Nat.lt_of_lt_of_le (othersOn_lt_of_live hdate) (h.le peer x.nowMs hclock)
    | record task active pick =>
      cases hwrites
      rw [recordPeer_asciiU64 hsound.1] at hpeer
      cases hpeer
      exact Nat.lt_of_le_of_lt hdate hsound.2
    | stamp pick nowMs =>
      cases hwrites
      rcases hkey with ⟨rest, hkey⟩
      cases hkey
    | _ => cases hwrites

namespace Runs

/-- The clock does not go back, and a run that is about to write is up to date. -/
def UpToDate (p : Runs) (e : Event) : Prop :=
  match e with
  | .spawn _ => True
  | .step i x =>
    p.shared.clock ≤ x.nowMs
      ∧ match p.threads[i]? with
        | none => True
        | some t => t.UpToDate p.shared.plugin.toHostState x.nowMs

instance (p : Runs) (e : Event) : Decidable (p.UpToDate e) := by
  unfold UpToDate
  split
  . exact inferInstance
  . split <;> exact inferInstance

structure WithinCap (cfg : Settings) (p : Runs) : Prop where
  capped : Capped (cap cfg) p.shared
  sound : ∀ (i : Nat) t, p.threads[i]? = some t → t.Sound (cap cfg)

theorem withinCap_new (cfg : Settings) : new.WithinCap cfg where
  capped := ⟨fun _ _ _ => Nat.zero_le _⟩
  sound := nofun

theorem WithinCap.step {cfg : Settings} (hcap : cap cfg ≠ 0) {p q : Runs} {e : Event} (h : p.WithinCap cfg)
    (hok : p.UpToDate e) (hstep : p.step cfg e = some q)
    : q.WithinCap cfg := by
  constructor
  . rcases Pool.step_cases start (act cfg) hstep with ⟨o, rfl, rfl⟩ | ⟨i, x, t, s, t', rfl, ht, hact, rfl⟩
    . exact h.capped
    . rcases hok with ⟨hclock, hdate⟩
      rw [ht] at hdate
      exact h.capped.act (h.sound i t ht) hclock hdate hact
  . apply Pool.forall_step start (act cfg) _ _ h.sound hstep
    . intro call
      exact Stage.sound_start _ call
    . intro s t x s' t' _ hact
      exact act_sound hcap hact

end Runs

theorem records_le_of_upToDate (cfg : Settings) (hcap : cap cfg ≠ 0) (events : List Event) (p : Runs)
    (hok : Machine.Guarded (Runs.step cfg) Runs.UpToDate Runs.new events)
    (hrun : Machine.run (Runs.step cfg) Runs.new events = some p) (peer t : Nat) (ht : p.shared.clock ≤ t)
    : liveOn p.shared.plugin.toHostState peer t ≤ maxTasksPerNode cfg := by
  have hinv : p.WithinCap cfg := by
    apply Machine.inv_of_run _ (Runs.withinCap_new cfg) hok hrun
    intro p e q hp hok hstep
    exact hp.step hcap hok hstep
  exact Nat.le_trans (hinv.capped.le peer t ht) (Nat.mod_le _ _)

def oneTask : Settings := fun key => if key = "max_tasks_per_node" then some "1" else none

def onePeer : Peers where
  list := [{ healthy := true }]
  length_le := by decide

def runOf (task : Bytes) : Event := .spawn (.balancer { task := some task, peers := onePeer })

def stepAt (nowMs i : Nat) : Event :=
  .step i { nowMs := nowMs, sweptAt := nowMs, createdAt := nowMs, accepted := true }

def oneByOne : List Event :=
  [runOf [1]] ++ List.replicate 9 (stepAt 5 0) ++ [runOf [2]] ++ List.replicate 5 (stepAt 6 1)
    ++ [runOf [1]] ++ List.replicate 3 (stepAt 7 2)

theorem records_le_of_upToDate_oneByOne
    : ∃ p, Machine.run (Runs.step oneTask) Runs.new oneByOne = some p
        ∧ liveOn p.shared.plugin.toHostState 0 7 = 1
        ∧ liveOn p.shared.plugin.toHostState 0 7 ≤ maxTasksPerNode oneTask := by
  have hlive : (Machine.run (Runs.step oneTask) Runs.new oneByOne).map
      (fun p => (p.shared.clock, liveOn p.shared.plugin.toHostState 0 7)) = some (7, 1) := by
    decide +kernel
  rcases Option.map_eq_some_iff.mp hlive with ⟨p, hrun, hp⟩
  rw [Prod.mk.injEq] at hp
  refine ⟨p, hrun, hp.2, ?_⟩
  apply records_le_of_upToDate oneTask (by decide +kernel) oneByOne p _ hrun 0 7 (Nat.le_of_eq hp.1)
  decide +kernel

def bothCount : List Event :=
  [runOf [1], runOf [2]] ++ (List.replicate 6 [stepAt 5 0, stepAt 5 1]).flatten

theorem records_exceed_cap
    : ∃ p, Machine.run (Runs.step oneTask) Runs.new bothCount = some p
        ∧ 1 ≤ maxTasksPerNode oneTask
        ∧ maxTasksPerNode oneTask < liveOn p.shared.plugin.toHostState 0 p.shared.clock := by
  have hlive : (Machine.run (Runs.step oneTask) Runs.new bothCount).map
      (fun p => liveOn p.shared.plugin.toHostState 0 p.shared.clock) = some 2 := by
    decide +kernel
  have hmax : maxTasksPerNode oneTask = 1 := by decide +kernel
  rcases Option.map_eq_some_iff.mp hlive with ⟨p, hrun, hp⟩
  refine ⟨p, hrun, Nat.le_of_eq hmax.symm, ?_⟩
  rw [hp, hmax]
  decide

end Scheduler
end OpenRusty
