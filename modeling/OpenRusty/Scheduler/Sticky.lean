import OpenRusty.Lib.Machine
import OpenRusty.Scheduler.Effects

/-!
This module contains the stickiness of the scheduler plugin over the runs of one request after the other, each
on an upstream of its own. The index in a record is one in the peers of the upstream that the run was for,
while the key of the record has only the task.
-/

namespace OpenRusty
namespace Scheduler

/-- The call `balancer_set_peer` (`linker_req.rs`): the health of the peer is up to the plugin. -/
def balancerSetPeer (peers : Peers) (idx : Nat) : Bool :=
  decide (0 ≤ asI32 idx ∧ asI32 idx < peers.list.length)

def Stage.assigns (t : Stage) : Option (Bytes × Nat) :=
  match t with
  | .renew task _ idx => some (task, idx)
  | .record task _ pick => some (task, pick)
  | _ => none

def Stage.asks (t : Stage) : Option Nat :=
  match t with
  | .stick _ _ idx => some idx
  | .setPeer pick => some pick
  | _ => none

structure Affinity where
  peer : Nat
  recordedAt : Nat
  deriving DecidableEq, Repr

def Affinity.isLive (cfg : Settings) (a : Affinity) (nowMs : Nat) : Bool :=
  !isExpired (expiryOf (ttlMs cfg) a.recordedAt) nowMs

structure Instants where
  nowMs : Nat
  sweptAt : Nat
  createdAt : Nat
  deriving DecidableEq, Repr

def Instants.input (x : Instants) (accepted : Bool) : Input :=
  { nowMs := x.nowMs, sweptAt := x.sweptAt, createdAt := x.createdAt, accepted := accepted }

def inOrder (clock : Nat) (xs : List Instants) : Prop :=
  match xs with
  | [] => True
  | x :: xs => clock ≤ x.sweptAt ∧ x.sweptAt ≤ x.nowMs ∧ inOrder x.nowMs xs

instance decidableInOrder (clock : Nat) (xs : List Instants) : Decidable (inOrder clock xs) :=
  match xs with
  | [] => isTrue trivial
  | x :: xs =>
    have := decidableInOrder x.nowMs xs
    inferInstanceAs (Decidable (clock ≤ x.sweptAt ∧ x.sweptAt ≤ x.nowMs ∧ inOrder x.nowMs xs))

def Peers.Keep (peers : Peers) (idx : Nat) : Prop :=
  peers.isHealthy idx = true ∨ ∀ peer ∈ peers.list, peer.healthy = false

instance (peers : Peers) (idx : Nat) : Decidable (peers.Keep idx) :=
  inferInstanceAs (Decidable (peers.isHealthy idx = true ∨ ∀ peer ∈ peers.list, peer.healthy = false))

theorem Peers.Keep.isHealthy {peers : Peers} {idx : Nat} (h : peers.Keep idx) {other : Nat}
    (hother : peers.isHealthy other = true)
    : peers.isHealthy idx = true := by
  rcases h with hidx | hsick
  . exact hidx
  . rw [Peers.isHealthy_eq_false hsick] at hother
    cases hother

structure Visit where
  upstream : String
  request : Request
  -- at the host calls that it makes
  instants : List Instants

structure World where
  store : Store
  records : AList fun _ : Bytes × String => Affinity
  selected : Option Nat

structure Run extends World where
  stage : Stage

namespace Run

def noted (cfg : Settings) (upstream : String) (r : Run) (nowMs : Nat)
    : AList fun _ : Bytes × String => Affinity :=
  match r.stage.assigns with
  | none => r.records
  | some (task, idx) =>
    -- The quota of the store may refuse the record.
    if (r.store.plugin.toHostState.kvSet (affKey task) (asciiU64 idx) (ttlMs cfg) nowMs).1 then
      r.records.insert (task, upstream) { peer := idx, recordedAt := nowMs }
    else
      r.records

def advance (cfg : Settings) (v : Visit) (r : Run) (x : Instants) : Option Run :=
  let accepted := r.stage.asks.any (balancerSetPeer v.request.peers)
  (act cfg r.store r.stage (x.input accepted)).map fun (store, stage) =>
    { store := store
      records := r.noted cfg v.upstream x.nowMs
      selected := if accepted then r.stage.asks else r.selected
      stage := stage }

def result (r : Run) : Option World :=
  match r.stage with
  | .returned _ => some r.toWorld
  | _ => none

end Run

namespace World

def new : World := { store := { plugin := PluginState.new, clock := 0 }, records := ∅, selected := none }

def enter (w : World) (v : Visit) : Run :=
  { w with selected := none, stage := onBalancer v.request }

def step (cfg : Settings) (w : World) (v : Visit) : Option World :=
  (Machine.run (Run.advance cfg v) (w.enter v) v.instants).bind Run.result

def Sticks (cfg : Settings) (w : World) (v : Visit) : Prop :=
  ∀ task a x xs, v.request.task = some task → v.instants = x :: xs →
    w.records.lookup (task, v.upstream) = some a → a.isLive cfg x.nowMs = true →
      v.request.peers.isHealthy a.peer = true →
        (∀ w', w.step cfg v = some w' → w'.selected = some a.peer)
          ∧ (xs.length = 2 → (w.step cfg v).isSome = true)

/-- What the task has got on other upstreams is kept here, and the clock does not go back. -/
def Undisturbed (cfg : Settings) (w : World) (v : Visit) : Prop :=
  inOrder w.store.clock v.instants
    ∧ ∀ e ∈ w.records.entries, v.request.task = some e.1.1 → e.1.2 ≠ v.upstream →
        (∃ x ∈ v.instants.head?, e.2.isLive cfg x.nowMs = true) → v.request.peers.Keep e.2.peer

instance (cfg : Settings) (w : World) (v : Visit) : Decidable (w.Undisturbed cfg v) := by
  unfold Undisturbed
  exact inferInstance

end World

theorem isExpired_expiryOf {ttlMs : Int} {t t' nowMs : Nat} (h : isExpired (expiryOf ttlMs t') nowMs = true)
    (ht : t ≤ t')
    : isExpired (expiryOf ttlMs t) nowMs = true := by
  unfold isExpired expiryOf Word.saturatingAdd at h ⊢
  simp only [Bool.and_eq_true, bne_iff_ne, decide_eq_true_eq] at h ⊢
  split at h
  . exact absurd rfl h.1
  . next hpos =>
    rw [if_neg hpos]
    omega

theorem Affinity.isLive_anti {cfg : Settings} {a : Affinity} {t t' : Nat} (h : a.isLive cfg t' = true) (ht : t ≤ t')
    : a.isLive cfg t = true := by
  unfold isLive at h ⊢
  rw [Bool.not_eq_true'] at h ⊢
  cases hexpired : isExpired (expiryOf (ttlMs cfg) a.recordedAt) t with
  | false => rfl
  | true =>
    rw [isExpired_mono hexpired ht] at h
    cases h

/-!
A live affinity is backed by the record of the task, which says the same peer and does not expire earlier.
-/

def Affinity.BackedBy (cfg : Settings) (s : Store) (task : Bytes) (a : Affinity) : Prop :=
  a.peer < 2 ^ 32
    ∧ ∃ writtenAt, a.recordedAt ≤ writtenAt ∧ writtenAt ≤ s.clock
        ∧ s.plugin.kv.lookup (affKey task)
            =
          some { value := asciiU64 a.peer, expiresAt := expiryOf (ttlMs cfg) writtenAt }

namespace Affinity.BackedBy

variable {cfg : Settings} {s s' : Store} {task : Bytes} {a b : Affinity}

theorem of_lookup (h : a.BackedBy cfg s task) (hclock : s.clock ≤ s'.clock)
    (hlook : s'.plugin.kv.lookup (affKey task) = s.plugin.kv.lookup (affKey task))
    : a.BackedBy cfg s' task := by
  rcases h with ⟨hpeer, writtenAt, hle, hwritten, hentry⟩
  exact ⟨hpeer, writtenAt, hle, Nat.le_trans hwritten hclock, by rw [hlook, hentry]⟩

theorem isExpired_eq_false {writtenAt nowMs : Nat} (hle : a.recordedAt ≤ writtenAt)
    (hlive : a.isLive cfg nowMs = true)
    : isExpired (expiryOf (ttlMs cfg) writtenAt) nowMs = false := by
  unfold isLive at hlive
  cases hexpired : isExpired (expiryOf (ttlMs cfg) writtenAt) nowMs with
  | false => rfl
  | true =>
    rw [isExpired_expiryOf hexpired hle] at hlive
    cases hlive

theorem of_drops (h : a.BackedBy cfg s task) (hclock : s.clock ≤ s'.clock) {t : Nat} (hdrops : Drops t s s')
    (hlive : a.isLive cfg t = true)
    : a.BackedBy cfg s' task := by
  apply h.of_lookup hclock
  rcases h with ⟨-, writtenAt, hle, -, hentry⟩
  rw [hentry]
  exact hdrops.lookup hentry (isExpired_eq_false hle hlive)

theorem of_write {nowMs : Nat} (hpeer : a.peer < 2 ^ 32) (hle : a.recordedAt ≤ nowMs) (hclock : s'.clock = nowMs)
    (hkv : s'.plugin.kv
      = s.plugin.kv.insert (affKey task) { value := asciiU64 a.peer, expiresAt := expiryOf (ttlMs cfg) nowMs })
    : a.BackedBy cfg s' task := by
  refine ⟨hpeer, nowMs, hle, Nat.le_of_eq hclock.symm, ?_⟩
  rw [hkv, AList.lookup_insert]

theorem recordedAt_le (h : a.BackedBy cfg s task) : a.recordedAt ≤ s.clock := by
  rcases h with ⟨-, writtenAt, hle, hwritten, -⟩
  exact Nat.le_trans hle hwritten

theorem kvGet_eq (h : a.BackedBy cfg s task) {nowMs : Nat} (hlive : a.isLive cfg nowMs = true)
    : (s.kvGet (affKey task) nowMs).1 = some (asciiU64 a.peer) := by
  rcases h with ⟨hpeer, writtenAt, hle, -, hentry⟩
  have hvalue : s.plugin.toHostState.live (affKey task) nowMs = some (asciiU64 a.peer) :=
    HostState.live_eq_some.mpr ⟨_, hentry, isExpired_eq_false hle hlive, rfl⟩
  have hread : (s.plugin.toHostState.kvGet (affKey task) nowMs).1 = some (asciiU64 a.peer) := by
    unfold HostState.kvGet
    rcases s.plugin.toHostState.kvGetWith_cases (affKey task) id nowMs with heq | ⟨e, -, -, heq⟩
    . rw [heq, hvalue]
      rfl
    . rw [heq, hvalue]
      rfl
  have hne : asciiU64 a.peer ≠ [] := by
    intro hempty
    have hpeer := recordPeer_asciiU64 hpeer
    rw [hempty] at hpeer
    cases hpeer
  unfold Store.kvGet
  dsimp only
  rw [hread, Option.filter_eq_some_iff]
  exact ⟨rfl, by simpa using hne⟩

theorem affinityPeer_eq (h : a.BackedBy cfg s task) {nowMs : Nat} (hlive : a.isLive cfg nowMs = true)
    {peers : Peers} (hhealthy : peers.isHealthy a.peer = true)
    : affinityPeer (s.kvGet (affKey task) nowMs).1 peers = some a.peer := by
  rw [h.kvGet_eq hlive, affinityPeer_eq_some]
  exact ⟨recordPeer_asciiU64 h.1, hhealthy⟩

end Affinity.BackedBy

def World.Backed (cfg : Settings) (w : World) : Prop :=
  ∀ task upstream a, w.records.lookup (task, upstream) = some a → a.isLive cfg w.store.clock = true →
    a.BackedBy cfg w.store task

theorem affKey_injective : Function.Injective affKey := by
  intro task task' h
  exact List.append_cancel_left h

theorem affKey_ne_schedKey (task : Bytes) (idx : Nat) : affKey task ≠ schedKey idx := by
  intro h
  cases h

namespace Stage

theorem writes_of_assigns {t : Stage} {task : Bytes} {idx : Nat} (h : t.assigns = some (task, idx))
    : t.writes = some (affKey task, asciiU64 idx) := by
  cases t with
  | renew | record =>
    cases h
    rfl
  | _ => cases h

theorem writes_of_assigns_eq_none {t : Stage} (h : t.assigns = none)
    : t.writes = none ∨ ∃ pick nowMs, t.writes = some (schedKey pick, asciiU64 nowMs) := by
  cases t with
  | renew | record => cases h
  | stamp pick nowMs => exact .inr ⟨pick, nowMs, rfl⟩
  | _ => exact .inl rfl

end Stage

theorem Run.advance_act {cfg : Settings} {v : Visit} {r r' : Run} {x : Instants}
    (h : r.advance cfg v x = some r')
    : act cfg r.store r.stage (x.input (r.stage.asks.any (balancerSetPeer v.request.peers)))
        =
      some (r'.store, r'.stage) := by
  rcases Option.map_eq_some_iff.mp h with ⟨⟨store, stage⟩, hact, rfl⟩
  exact hact

theorem Run.advance_effect {cfg : Settings} {v : Visit} {r r' : Run} {x : Instants}
    (h : r.advance cfg v x = some r')
    : r'.store.clock = x.nowMs
        ∧ r'.records = r.noted cfg v.upstream x.nowMs
        ∧ match r.stage.writes with
          | none => Drops (max x.sweptAt x.nowMs) r.store r'.store
          | some (key, val) => r'.store = r.store.kvSet key val (ttlMs cfg) x.nowMs := by
  rcases Option.map_eq_some_iff.mp h with ⟨⟨store, stage⟩, hact, rfl⟩
  rcases act_effect hact with ⟨hclock, heffect⟩
  exact ⟨hclock, rfl, heffect⟩

def World.Agrees (cfg : Settings) (w : World) (task : Bytes) (upstream : String) (nowMs idx : Nat) : Prop :=
  ∀ other a, other ≠ upstream → w.records.lookup (task, other) = some a → a.isLive cfg nowMs = true →
    a.peer = idx

theorem World.Backed.advance {cfg : Settings} {v : Visit} {r r' : Run} {x : Instants}
    (h : r.toWorld.Backed cfg) (hswept : r.store.clock ≤ x.sweptAt) (hnow : x.sweptAt ≤ x.nowMs)
    (hagree : ∀ task idx, r.stage.assigns = some (task, idx) →
      idx < 2 ^ 32 ∧ r.toWorld.Agrees cfg task v.upstream x.nowMs idx)
    (hadvance : r.advance cfg v x = some r')
    : r'.toWorld.Backed cfg := by
  rcases Run.advance_effect hadvance with ⟨hclock, hrecords, heffect⟩
  have hlater : r.store.clock ≤ r'.store.clock := by omega
  intro task upstream a hlook hlive
  rw [hclock] at hlive
  have hbefore : a.isLive cfg r.store.clock = true := Affinity.isLive_anti hlive (by omega)
  rw [hrecords] at hlook
  unfold Run.noted at hlook
  cases hassigns : r.stage.assigns with
  | none =>
    rw [hassigns] at hlook
    have hbacked := h task upstream a hlook hbefore
    rcases Stage.writes_of_assigns_eq_none hassigns with hwrites | ⟨pick, nowMs, hwrites⟩
    . rw [hwrites] at heffect
      apply hbacked.of_drops hlater heffect
      rwa [Nat.max_eq_right hnow]
    . rw [hwrites] at heffect
      apply hbacked.of_lookup hlater
      rw [heffect]
      rcases kvSet_cases r.store (schedKey pick) (asciiU64 nowMs) (ttlMs cfg) x.nowMs with ⟨-, hkv⟩ | ⟨-, hkv⟩
      . rw [hkv]
      . rw [hkv, AList.lookup_insert_ne (affKey_ne_schedKey task pick)]
  | some assigned =>
    rcases assigned with ⟨task', idx⟩
    rcases hagree task' idx hassigns with ⟨hidx, hagree⟩
    rw [hassigns] at hlook
    rw [Stage.writes_of_assigns hassigns] at heffect
    dsimp only at hlook heffect
    rcases kvSet_cases r.store (affKey task') (asciiU64 idx) (ttlMs cfg) x.nowMs with ⟨hres, hkv⟩ | ⟨hres, hkv⟩
    . rw [if_neg (by rw [hres]; decide)] at hlook
      apply (h task upstream a hlook hbefore).of_lookup hlater
      rw [heffect, hkv]
    . rw [← heffect] at hkv
      rw [if_pos hres] at hlook
      by_cases hkey : (task, upstream) = (task', v.upstream)
      . cases hkey
        rw [AList.lookup_insert] at hlook
        cases hlook
        exact .of_write hidx (Nat.le_refl _) hclock hkv
      . rw [AList.lookup_insert_ne hkey] at hlook
        have hbacked := h task upstream a hlook hbefore
        by_cases htask : task = task'
        . subst htask
          have hother : upstream ≠ v.upstream := fun heq => hkey (by rw [heq])
          have hpeer := hagree upstream a hother hlook hlive
          rw [← hpeer] at hkv
          exact .of_write hbacked.1 (hbacked.recordedAt_le.trans (by omega)) hclock hkv
        . apply hbacked.of_lookup hlater
          rw [hkv, AList.lookup_insert_ne fun heq => htask (affKey_injective heq)]

/-!
A run assigns only peers that what its task has got elsewhere agrees with.
-/

theorem balancerSetPeer_of_isHealthy {peers : Peers} {idx : Nat} (h : peers.isHealthy idx = true)
    : balancerSetPeer peers idx = true := by
  have hlt := Peers.lt_of_isHealthy h
  have hle := peers.length_le
  unfold balancerSetPeer
  rw [asI32_eq (by omega), decide_eq_true_eq]
  omega

def Stage.Heeds (task : Bytes) (peers : Peers) (fine : Nat → Prop) (t : Stage) : Prop :=
  match t with
  | .getAff _ _ => False
  | .renew task' peers' idx => task' = task ∧ peers' = peers ∧ peers.isHealthy idx = true ∧ fine idx
  | .stick _ _ idx => peers.isHealthy idx = true
  | .scanBegin task' peers' => task' = task ∧ peers' = peers ∧ ∀ idx, peers.isHealthy idx = true → fine idx
  | .scanNext task' peers' _ _ => task' = task ∧ peers' = peers ∧ ∀ idx, peers.isHealthy idx = true → fine idx
  | .scanEnd task' peers' _ _ => task' = task ∧ peers' = peers ∧ ∀ idx, peers.isHealthy idx = true → fine idx
  | .schedTs task' peers' _ _ => task' = task ∧ peers' = peers ∧ ∀ idx, peers.isHealthy idx = true → fine idx
  | .record task' _ pick => task' = task ∧ peers.isHealthy pick = true ∧ fine pick
  | .readClock _ => True
  | .stamp _ _ => True
  | .setPeer _ => True
  | .returned _ => True
  | .maintenance => False

namespace Stage.Heeds

variable {task : Bytes} {peers : Peers} {fine : Nat → Prop}

theorem of_assigns {t : Stage} (h : t.Heeds task peers fine) {task' : Bytes} {idx : Nat}
    (hassigns : t.assigns = some (task', idx))
    : task' = task ∧ peers.isHealthy idx = true ∧ fine idx := by
  cases t with
  | renew _ _ _ =>
    cases hassigns
    exact ⟨h.1, h.2.2⟩
  | record _ _ _ =>
    cases hassigns
    exact h
  | _ => cases hassigns

theorem gatherAndPick (hfine : ∀ idx, peers.isHealthy idx = true → fine idx)
    : (gatherAndPick task peers).Heeds task peers fine := by
  unfold Scheduler.gatherAndPick
  split
  . trivial
  . exact ⟨rfl, rfl, hfine⟩

theorem afterStamps (cfg : Settings) (active stamps : List Nat)
    (hfine : ∀ idx, peers.isHealthy idx = true → fine idx)
    : (afterStamps cfg task peers active stamps).Heeds task peers fine := by
  unfold Scheduler.afterStamps
  split
  . exact ⟨rfl, rfl, hfine⟩
  . split
    . trivial
    . next pick hpick =>
      have hhealthy := (isHealthy_of_choose hpick).1
      exact ⟨rfl, hhealthy, hfine pick hhealthy⟩

theorem act {cfg : Settings} {s s' : Store} {t t' : Stage} {x : Input} (h : t.Heeds task peers fine)
    (haccepted : ∀ idx, t.asks = some idx → peers.isHealthy idx = true → x.accepted = true)
    (hact : act cfg s t x = some (s', t'))
    : t'.Heeds task peers fine := by
  cases t with
  | getAff | maintenance => cases h
  | renew task' peers' idx =>
    cases hact
    exact h.2.2.1
  | stick task' peers' idx =>
    cases hact
    rw [if_pos (haccepted idx rfl h)]
    trivial
  | scanBegin task' peers' =>
    unfold Scheduler.act at hact
    dsimp only at hact
    split at hact
    . cases hact
      exact h
    . cases hact
      exact h
  | scanNext task' peers' cursor active =>
    unfold Scheduler.act at hact
    dsimp only at hact
    split at hact
    . cases hact
      exact h
    . split at hact
      . cases hact
        exact h
      . cases hact
        exact h
  | scanEnd task' peers' cursor active =>
    cases hact
    exact h
  | schedTs task' peers' active stamps =>
    rcases h with ⟨rfl, rfl, hfine⟩
    cases hact
    exact afterStamps cfg _ _ hfine
  | record task' active pick =>
    cases hact
    trivial
  | readClock | stamp | setPeer =>
    cases hact
    trivial
  | returned => cases hact

end Stage.Heeds

/-!
What a visit does, from the lookup of the task on.
-/

structure Run.Heeds (cfg : Settings) (w : World) (v : Visit) (task : Bytes) (lookedAt : Nat) (r : Run) : Prop where
  backed : r.toWorld.Backed cfg
  heeds : r.stage.Heeds task v.request.peers (w.Agrees cfg task v.upstream lookedAt)
  elsewhere : ∀ upstream, upstream ≠ v.upstream →
    r.records.lookup (task, upstream) = w.records.lookup (task, upstream)
  clock : lookedAt ≤ r.store.clock

theorem Run.lookup_noted_of_ne {cfg : Settings} {r : Run} {task : Bytes} {upstream other : String} {nowMs : Nat}
    (h : other ≠ upstream)
    : (r.noted cfg upstream nowMs).lookup (task, other) = r.records.lookup (task, other) := by
  unfold noted
  split
  . rfl
  . split
    . apply AList.lookup_insert_ne
      intro heq
      exact h (congrArg Prod.snd heq)
    . rfl

theorem Run.Heeds.advance {cfg : Settings} {w : World} {v : Visit} {task : Bytes} {lookedAt : Nat} {r r' : Run}
    {x : Instants} (h : r.Heeds cfg w v task lookedAt)
    (horder : r.store.clock ≤ x.sweptAt ∧ x.sweptAt ≤ x.nowMs) (hadvance : r.advance cfg v x = some r')
    : r'.Heeds cfg w v task lookedAt := by
  rcases Run.advance_effect hadvance with ⟨hclock, hrecords, -⟩
  have hlater := h.clock
  constructor
  . apply h.backed.advance horder.1 horder.2 _ hadvance
    intro task' idx hassigns
    rcases h.heeds.of_assigns hassigns with ⟨rfl, hhealthy, hagree⟩
    refine ⟨Peers.lt_word_of_isHealthy hhealthy, ?_⟩
    intro other a hother hlook hlive
    rw [h.elsewhere other hother] at hlook
    exact hagree other a hother hlook (Affinity.isLive_anti hlive (by omega))
  . apply h.heeds.act _ (Run.advance_act hadvance)
    intro idx hasks hhealthy
    change r.stage.asks.any _ = true
    rw [hasks]
    exact balancerSetPeer_of_isHealthy hhealthy
  . intro upstream hupstream
    rw [hrecords, Run.lookup_noted_of_ne hupstream]
    exact h.elsewhere upstream hupstream
  . omega

theorem Run.guarded_of_inOrder {cfg : Settings} {v : Visit} {r : Run} {xs : List Instants}
    (h : inOrder r.store.clock xs)
    : Machine.Guarded (Run.advance cfg v) (fun r x => r.store.clock ≤ x.sweptAt ∧ x.sweptAt ≤ x.nowMs) r xs := by
  induction xs generalizing r with
  | nil => trivial
  | cons x xs ih =>
    refine ⟨⟨h.1, h.2.1⟩, ?_⟩
    intro r' hadvance
    apply ih
    rw [(Run.advance_effect hadvance).1]
    exact h.2.2

theorem Run.Heeds.of_run {cfg : Settings} {w : World} {v : Visit} {task : Bytes} {lookedAt : Nat} {r r' : Run}
    {xs : List Instants} (h : r.Heeds cfg w v task lookedAt) (horder : inOrder r.store.clock xs)
    (hrun : Machine.run (Run.advance cfg v) r xs = some r')
    : r'.Heeds cfg w v task lookedAt := by
  apply Machine.inv_of_run _ h (Run.guarded_of_inOrder horder) hrun
  intro r x r' hr horder hadvance
  exact hr.advance horder hadvance

theorem act_getAff (cfg : Settings) (s : Store) (task : Bytes) (peers : Peers) (x : Input)
    : act cfg s (.getAff task peers) x
        =
      some ((s.kvGet (affKey task) x.nowMs).2,
        match affinityPeer (s.kvGet (affKey task) x.nowMs).1 peers with
        | some idx => .renew task peers idx
        | none => gatherAndPick task peers) := by
  unfold act
  dsimp only
  cases affinityPeer (s.kvGet (affKey task) x.nowMs).1 peers with
  | some idx => rfl
  | none => rfl

namespace World

variable {cfg : Settings} {w : World} {v : Visit} {task : Bytes} {x : Instants}

theorem advance_enter (cfg : Settings) (htask : v.request.task = some task) (x : Instants)
    : (w.enter v).advance cfg v x
        =
      some
        { store := (w.store.kvGet (affKey task) x.nowMs).2
          records := w.records
          selected := none
          stage :=
            match affinityPeer (w.store.kvGet (affKey task) x.nowMs).1 v.request.peers with
            | some idx => .renew task v.request.peers idx
            | none => gatherAndPick task v.request.peers } := by
  unfold enter onBalancer
  rw [htask]
  unfold Run.advance
  dsimp only
  rw [act_getAff]
  rfl

theorem Backed.heeds (h : w.Backed cfg) (htask : v.request.task = some task)
    (horder : w.store.clock ≤ x.sweptAt ∧ x.sweptAt ≤ x.nowMs)
    (hothers : ∀ other a, other ≠ v.upstream → w.records.lookup (task, other) = some a →
      a.isLive cfg x.nowMs = true → v.request.peers.Keep a.peer)
    {r : Run} (hadvance : (w.enter v).advance cfg v x = some r)
    : r.Heeds cfg w v task x.nowMs := by
  have hbacked : r.toWorld.Backed cfg := by
    apply Backed.advance h horder.1 horder.2 _ hadvance
    intro task' idx hassigns
    unfold enter onBalancer at hassigns
    rw [htask] at hassigns
    cases hassigns
  have hread : ∀ other a, w.records.lookup (task, other) = some a → a.isLive cfg x.nowMs = true →
      v.request.peers.isHealthy a.peer = true →
        affinityPeer (w.store.kvGet (affKey task) x.nowMs).1 v.request.peers = some a.peer := by
    intro other a hlook hlive hhealthy
    have hbacked := h task other a hlook (Affinity.isLive_anti hlive (by omega))
    exact hbacked.affinityPeer_eq hlive hhealthy
  rw [advance_enter cfg htask] at hadvance
  cases hadvance
  refine ⟨hbacked, ?_, fun _ _ => rfl, Nat.le_refl _⟩
  dsimp only
  split
  . next idx hidx =>
    have hhealthy := isHealthy_of_affinityPeer hidx
    refine ⟨rfl, rfl, hhealthy, ?_⟩
    intro other a hother hlook hlive
    have hfound := hread other a hlook hlive ((hothers other a hother hlook hlive).isHealthy hhealthy)
    rw [hidx] at hfound
    exact (Option.some.inj hfound).symm
  . next hidx =>
    -- A live affinity elsewhere would have been found, or there is nothing to pick from.
    apply Stage.Heeds.gatherAndPick
    intro idx hhealthy other a hother hlook hlive
    have hfound := hread other a hlook hlive ((hothers other a hother hlook hlive).isHealthy hhealthy)
    rw [hidx] at hfound
    cases hfound

theorem Undisturbed.others (h : w.Undisturbed cfg v) (htask : v.request.task = some task) {xs : List Instants}
    (hxs : v.instants = x :: xs)
    : ∀ other a, other ≠ v.upstream → w.records.lookup (task, other) = some a →
        a.isLive cfg x.nowMs = true → v.request.peers.Keep a.peer := by
  intro other a hother hlook hlive
  apply h.2 ⟨(task, other), a⟩ (AList.mem_lookup_iff.mp hlook) htask hother
  refine ⟨x, ?_, hlive⟩
  rw [hxs]
  rfl

theorem Backed.step (h : w.Backed cfg) (hok : w.Undisturbed cfg v) {w' : World} (hstep : w.step cfg v = some w')
    : w'.Backed cfg := by
  rcases Option.bind_eq_some_iff.mp hstep with ⟨r, hrun, hresult⟩
  have hbacked : r.toWorld.Backed cfg := by
    cases hxs : v.instants with
    | nil =>
      rw [hxs, Machine.run_nil] at hrun
      cases hrun
      exact h
    | cons x xs =>
      rw [hxs] at hrun
      rcases (Machine.run_cons_eq_some _).mp hrun with ⟨u, hadvance, hrest⟩
      have horder := hok.1
      rw [hxs] at horder
      cases htask : v.request.task with
      | none =>
        have hact := Run.advance_act hadvance
        unfold enter onBalancer at hact
        rw [htask] at hact
        cases hact
      | some task =>
        have hheeds := h.heeds htask ⟨horder.1, horder.2.1⟩ (hok.others htask hxs) hadvance
        have horder := horder.2.2
        rw [← (Run.advance_effect hadvance).1] at horder
        exact (hheeds.of_run horder hrest).backed
  unfold Run.result at hresult
  split at hresult
  . cases hresult
    exact hbacked
  . cases hresult

end World

namespace Run

variable (cfg : Settings) {v : Visit} {r : Run} {task : Bytes} {peers : Peers} {idx : Nat}

theorem advance_renew (v : Visit) (hstage : r.stage = .renew task peers idx) (x : Instants)
    : ∃ r', r.advance cfg v x = some r' ∧ r'.stage = .stick task peers idx := by
  unfold advance
  rw [hstage]
  exact ⟨_, rfl, rfl⟩

theorem advance_stick (hstage : r.stage = .stick task peers idx) (hhealthy : v.request.peers.isHealthy idx = true)
    (x : Instants)
    : ∃ r', r.advance cfg v x = some r' ∧ r'.stage = .returned .ok ∧ r'.selected = some idx := by
  have hset := balancerSetPeer_of_isHealthy hhealthy
  unfold advance
  rw [hstage]
  simp [Stage.asks, act, Instants.input, hset]

theorem advance_returned {decision : Decision} (hstage : r.stage = .returned decision) (x : Instants)
    : r.advance cfg v x = none := by
  unfold advance
  rw [hstage]
  rfl

theorem result_of_renew (hstage : r.stage = .renew task peers idx) (hhealthy : v.request.peers.isHealthy idx = true)
    (xs : List Instants)
    : ((Machine.run (Run.advance cfg v) r xs).bind result).map (fun w => w.selected)
        =
      if xs.length = 2 then some (some idx) else none := by
  cases xs with
  | nil => simp [result, hstage]
  | cons x xs =>
    rcases advance_renew cfg v hstage x with ⟨r₁, hrenew, hstick⟩
    rw [Machine.run_of_step _ hrenew]
    cases xs with
    | nil => simp [result, hstick]
    | cons y xs =>
      rcases advance_stick cfg hstick hhealthy y with ⟨r₂, hset, hreturned, hselected⟩
      rw [Machine.run_of_step _ hset]
      cases xs with
      | nil => simp [result, hreturned, hselected]
      | cons z xs => simp [Machine.run_cons, advance_returned cfg hreturned]

end Run

namespace World

theorem Backed.sticks {cfg : Settings} {w : World} (h : w.Backed cfg) {v : Visit}
    (horder : inOrder w.store.clock v.instants)
    : w.Sticks cfg v := by
  intro task a x xs htask hxs hlook hlive hhealthy
  rw [hxs] at horder
  have hle := horder.1.trans horder.2.1
  have hbacked := h task v.upstream a hlook (Affinity.isLive_anti hlive hle)
  have hfound := hbacked.affinityPeer_eq hlive hhealthy
  have hselected : (w.step cfg v).map (fun w => w.selected) = if xs.length = 2 then some (some a.peer) else none := by
    unfold World.step
    rw [hxs, Machine.run_of_step _ (advance_enter cfg htask x), hfound]
    exact Run.result_of_renew cfg rfl hhealthy xs
  constructor
  . intro w' hstep
    rw [hstep] at hselected
    split at hselected
    . exact Option.some.inj hselected
    . cases hselected
  . intro hlength
    rw [if_pos hlength] at hselected
    rcases Option.map_eq_some_iff.mp hselected with ⟨w', hstep, -⟩
    rw [hstep]
    rfl

theorem backed_new (cfg : Settings) : new.Backed cfg := by
  intro task upstream a hlook
  cases hlook

end World

theorem sticks_of_undisturbed (cfg : Settings) (visits : List Visit) (w : World)
    (hok : Machine.Guarded (World.step cfg) (World.Undisturbed cfg) World.new visits)
    (hrun : Machine.run (World.step cfg) World.new visits = some w) (v : Visit)
    (horder : inOrder w.store.clock v.instants)
    : w.Sticks cfg v := by
  have hbacked : w.Backed cfg := by
    apply Machine.inv_of_run _ (World.backed_new cfg) hok hrun
    intro w v w' hw hok hstep
    exact hw.step hok hstep
  exact hbacked.sticks horder

def noSettings : Settings := fun _ => none

def twoPeers (first second : Bool) : Peers where
  list := [{ healthy := first }, { healthy := second }]
  length_le := by simp [i32Max]

def visitOf (upstream : String) (peers : Peers) (calls nowMs : Nat) : Visit where
  upstream := upstream
  request := { task := some [1], peers := peers }
  instants := List.replicate calls { nowMs := nowMs, sweptAt := nowMs, createdAt := nowMs }

def firstVisit : Visit := visitOf "a" (twoPeers false true) 10 5

def nextVisit : Visit := visitOf "a" (twoPeers true true) 3 7

def otherVisit : Visit := visitOf "b" (twoPeers true true) 3 6

theorem sticks_of_undisturbed_otherVisit
    : ∃ w w', Machine.run (World.step noSettings) World.new [firstVisit, otherVisit] = some w
        ∧ w.step noSettings nextVisit = some w'
        ∧ w'.selected = some 1 := by
  have hrecorded : (Machine.run (World.step noSettings) World.new [firstVisit, otherVisit]).map
      (fun w => (w.store.clock, w.records.lookup ([1], "a"))) = some (6, some { peer := 1, recordedAt := 5 }) := by
    decide +kernel
  have hok : Machine.Guarded (World.step noSettings) (World.Undisturbed noSettings) World.new
      [firstVisit, otherVisit] := by
    decide +kernel
  rcases Option.map_eq_some_iff.mp hrecorded with ⟨w, hrun, hw⟩
  rw [Prod.mk.injEq] at hw
  have horder : inOrder w.store.clock nextVisit.instants := by
    rw [hw.1]
    decide
  rcases sticks_of_undisturbed noSettings _ w hok hrun nextVisit horder [1] _ _ _ rfl rfl hw.2
    (by decide +kernel) (by decide +kernel) with ⟨hselected, hstep⟩
  rcases Option.isSome_iff_exists.mp (hstep rfl) with ⟨w', hstep⟩
  exact ⟨w, w', hrun, hstep, hselected w' hstep⟩

def strayVisit : Visit := visitOf "b" (twoPeers true false) 10 6

theorem strayVisit_moves_task
    : ∃ w, Machine.run (World.step noSettings) World.new [firstVisit, strayVisit] = some w
        ∧ inOrder w.store.clock nextVisit.instants
        ∧ ¬ w.Sticks noSettings nextVisit := by
  have hmoved : (Machine.run (World.step noSettings) World.new [firstVisit, strayVisit]).map
      (fun w => (w.store.clock, w.records.lookup ([1], "a"),
        (w.step noSettings nextVisit).map fun w' => w'.selected))
        =
      some (6, some { peer := 1, recordedAt := 5 }, some (some 0)) := by
    decide +kernel
  rcases Option.map_eq_some_iff.mp hmoved with ⟨w, hrun, hw⟩
  simp only [Prod.mk.injEq] at hw
  rcases hw with ⟨hclock, hrecorded, hselected⟩
  refine ⟨w, hrun, ?_, ?_⟩
  . rw [hclock]
    decide
  . intro hsticks
    rcases Option.map_eq_some_iff.mp hselected with ⟨w', hstep, hzero⟩
    have hone := (hsticks [1] _ _ _ rfl rfl hrecorded (by decide +kernel) (by decide +kernel)).1 w' hstep
    rw [hzero] at hone
    cases hone

end Scheduler
end OpenRusty
