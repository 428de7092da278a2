import OpenRusty.K8s.Render.TlsLemmas
import OpenRusty.Lib.FinMap
import OpenRusty.Server.SdListen

/-!
This module contains the certificates of the listeners (`tls/mod.rs`, `tls/resolver.rs`): where a listener
takes them from, the table by server name with its fallback, the seeding of the fallback while the listeners
are bound, and the replacement of the table by rendered Secrets. The parsing of the PEM texts into the
material of a session is a parameter.
-/

namespace OpenRusty

namespace Tls

def usesTls (l : ListenerConfig) : Bool := l.tls && l.role != .outbound

inductive TlsSources where
  | static (cert key : String)
  | ingress
  | staticWithIngress (cert key : String)
  deriving DecidableEq, Repr

def TlsSources.classify (l : ListenerConfig) (ingressEnabled : Bool) : TlsSources :=
  match l.tlsCert, l.tlsKey with
  | some cert, some key => if ingressEnabled then .staticWithIngress cert key else .static cert key
  | _, _ => .ingress

structure DynamicCertResolver (κ : Type) where
  map : AList fun _ : String => κ
  fallback : Option κ

structure TlsEnv (κ : Type) where
  readToString : String → Except String String
  certifiedKey : TlsPair → Except String κ

namespace DynamicCertResolver

variable {κ : Type}

def new : DynamicCertResolver κ := { map := ∅, fallback := none }

def lookup (r : DynamicCertResolver κ) (serverName : Option String) : Option κ :=
  ((serverName.map toAsciiLowercase).bind fun name => r.map.lookup name).or r.fallback

variable (env : TlsEnv κ)

def seedFallback (r : DynamicCertResolver κ) (pair : TlsPair) : Except String (DynamicCertResolver κ) :=
  match env.certifiedKey pair with
  | .ok key => .ok { r with fallback := some key }
  | .error e => .error e

def inOrder (pairs : AList fun _ : String => TlsPair) : List ((_ : String) × TlsPair) :=
  pairs.entries.mergeSort fun a b => decide (a.1 ≤ b.1)

/-- What cannot be parsed is left out of the table. -/
def insertUsable (next : AList fun _ : String => κ) (e : (_ : String) × TlsPair) : AList fun _ : String => κ :=
  match env.certifiedKey e.2 with
  | .ok key => next.insert (toAsciiLowercase e.1) key
  | .error _ => next

def updateFromTlsPairs (r : DynamicCertResolver κ) (pairs : AList fun _ : String => TlsPair)
    : DynamicCertResolver κ × Nat :=
  let next := (inOrder pairs).foldl (insertUsable env) ∅
  ({ r with map := next }, next.entries.length)

end DynamicCertResolver

open DynamicCertResolver

variable {κ : Type} (env : TlsEnv κ)

def bootStatic (r : DynamicCertResolver κ) (cert key : String) : Except String (DynamicCertResolver κ) :=
  match env.readToString cert with
  | .error e => .error ("tls_cert " ++ cert ++ ": " ++ e)
  | .ok certPem =>
    match env.readToString key with
    | .error e => .error ("tls_key " ++ key ++ ": " ++ e)
    | .ok keyPem => r.seedFallback env { certPem := certPem, keyPem := keyPem }

def boot (r : DynamicCertResolver κ) (sources : TlsSources) : Except String (DynamicCertResolver κ) :=
  match sources with
  | .static cert key => bootStatic env r cert key
  | .staticWithIngress cert key => bootStatic env r cert key
  | .ingress => .ok r

/-- There is one resolver for all listeners, if one of them terminates TLS at all. -/
def tlsResolver (listeners : List ListenerConfig) : Option (DynamicCertResolver κ) :=
  if listeners.any usesTls then some .new else none

/-- The part of the binding of the listeners that reads the static material. -/
def bootListeners (ingressEnabled : Bool) (listeners : List ListenerConfig) (r : DynamicCertResolver κ)
    : Except String (DynamicCertResolver κ) :=
  listeners.foldlM (fun r l => if usesTls l then boot env r (.classify l ingressEnabled) else .ok r) r

section boot

def staticPair (l : ListenerConfig) : Option (String × String) :=
  if usesTls l then
    match l.tlsCert, l.tlsKey with
    | some cert, some key => some (cert, key)
    | _, _ => none
  else
    none

def loadPair (files : String × String) : Except String κ :=
  match env.readToString files.1 with
  | .error e => .error ("tls_cert " ++ files.1 ++ ": " ++ e)
  | .ok certPem =>
    match env.readToString files.2 with
    | .error e => .error ("tls_key " ++ files.2 ++ ": " ++ e)
    | .ok keyPem => env.certifiedKey { certPem := certPem, keyPem := keyPem }

theorem bootStatic_eq (r : DynamicCertResolver κ) (cert key : String)
    : bootStatic env r cert key = (loadPair env (cert, key)).map fun k => { r with fallback := some k } := by
  unfold bootStatic loadPair seedFallback
  dsimp only
  cases env.readToString cert with
  | error e => rfl
  | ok certPem =>
    dsimp only
    cases env.readToString key with
    | error e => rfl
    | ok keyPem =>
      dsimp only
      cases env.certifiedKey { certPem := certPem, keyPem := keyPem } with
      | error e => rfl
      | ok k => rfl

theorem boot_step (ingressEnabled : Bool) (r : DynamicCertResolver κ) (l : ListenerConfig)
    : (if usesTls l then boot env r (.classify l ingressEnabled) else .ok r)
        = match staticPair l with
          | none => .ok r
          | some files => (loadPair env files).map fun k => { r with fallback := some k } := by
  unfold staticPair TlsSources.classify
  cases usesTls l with
  | false => rfl
  | true =>
    cases l.tlsCert with
    | none => rfl
    | some cert =>
      cases l.tlsKey with
      | none => rfl
      | some key =>
        cases ingressEnabled with
        | true => exact bootStatic_eq env r cert key
        | false => exact bootStatic_eq env r cert key

theorem bootListeners_eq_ok {ingressEnabled : Bool} {listeners : List ListenerConfig} {r r' : DynamicCertResolver κ}
    (h : bootListeners env ingressEnabled listeners r = .ok r')
    : r'.map = r.map
      ∧ (∀ l ∈ listeners, ∀ files, staticPair l = some files → ∃ k, loadPair env files = .ok k)
      ∧ r'.fallback = (((listeners.filterMap staticPair).getLast?.bind fun files =>
          (loadPair env files).toOption).or r.fallback) := by
  induction listeners generalizing r with
  | nil =>
    cases h
    exact ⟨rfl, by simp, by simp⟩
  | cons l listeners ih =>
    unfold bootListeners at h
    rw [List.foldlM_cons, boot_step] at h
    cases hpair : staticPair l with
    | none =>
      rw [hpair] at h
      obtain ⟨hmap, hload, hfallback⟩ := ih h
      refine ⟨hmap, ?_, ?_⟩
      . intro l' hl' files hfiles
        rcases List.mem_cons.mp hl' with rfl | hl'
        . rw [hpair] at hfiles
          cases hfiles
        . exact hload l' hl' files hfiles
      . rw [List.filterMap_cons_none hpair, hfallback]
    | some files =>
      rw [hpair] at h
      dsimp only at h
      cases hk : loadPair env files with
      | error e =>
        rw [hk] at h
        cases h
      | ok k =>
        rw [hk] at h
        obtain ⟨hmap, hload, hfallback⟩ := ih h
        refine ⟨hmap, ?_, ?_⟩
        . intro l' hl' files' hfiles
          rcases List.mem_cons.mp hl' with rfl | hl'
          . rw [hpair, Option.some.injEq] at hfiles
            rw [← hfiles]
            exact ⟨k, hk⟩
          . exact hload l' hl' files' hfiles
        . rw [List.filterMap_cons_some hpair, hfallback]
          -- A later listener with a static pair takes the fallback over, for all of them could be loaded.
          cases hlast : (listeners.filterMap staticPair).getLast? with
          | none =>
            rw [List.getLast?_eq_none_iff] at hlast
            simp [hlast, hk, Except.toOption]
          | some last =>
            obtain ⟨l', hl', hfiles'⟩ := List.mem_filterMap.mp (List.mem_of_getLast? hlast)
            obtain ⟨k', hk'⟩ := hload l' hl' last hfiles'
            have hcons : (files :: listeners.filterMap staticPair).getLast? = some last := by
              rw [List.getLast?_cons, hlast]
              rfl
            rw [hcons]
            simp [hk', Except.toOption]

end boot

section update

theorem toLower_of_not_upper {c : Char} (h : ¬(c.val ≥ 'A'.val ∧ c.val ≤ 'Z'.val)) : c.toLower = c := by
  unfold Char.toLower
  rw [dif_neg h]

theorem toLower_toLower (c : Char) : c.toLower.toLower = c.toLower := by
  by_cases h : c.val ≥ 'A'.val ∧ c.val ≤ 'Z'.val
  . have hlow : c.toLower.val = c.val + 32 := by
      unfold Char.toLower
      rw [dif_pos h]
      rfl
    have hnot : ¬(c.toLower.val ≥ 'A'.val ∧ c.toLower.val ≤ 'Z'.val) := by
      rw [hlow]
      intro habove
      have hge : 65 ≤ c.val.toNat := UInt32.le_iff_toNat_le.mp h.1
      have hle : c.val.toNat ≤ 90 := UInt32.le_iff_toNat_le.mp h.2
      have hle' : (c.val + 32).toNat ≤ 90 := UInt32.le_iff_toNat_le.mp habove.2
      have hsum : (c.val + 32).toNat = (c.val.toNat + 32) % 2 ^ 32 := UInt32.toNat_add _ _
      omega
    exact toLower_of_not_upper hnot
  . rw [toLower_of_not_upper h, toLower_of_not_upper h]

theorem toAsciiLowercase_normalizeHost (host : String)
    : toAsciiLowercase (normalizeHost host) = normalizeHost host := by
  unfold toAsciiLowercase normalizeHost
  rw [String.toList_ofList, List.map_map]
  congr 1
  apply List.map_congr_left
  intro c _
  exact toLower_toLower c

theorem insertUsable_eq (l : List ((_ : String) × TlsPair)) (m : AList fun _ : String => κ)
    : l.foldl (insertUsable env) m
        = (l.filterMap fun e => (env.certifiedKey e.2).toOption.map fun key => (toAsciiLowercase e.1, key)).foldl
            (fun m x => m.insert x.1 x.2) m := by
  induction l generalizing m with
  | nil => rfl
  | cons e l ih =>
    rw [List.foldl_cons, ih, List.filterMap_cons, insertUsable]
    cases env.certifiedKey e.2 with
    | error reason => rfl
    | ok key => rfl

theorem lookup_update {r : DynamicCertResolver κ} {pairs : AList fun _ : String => TlsPair}
    (hlower : ∀ host pair, pairs.lookup host = some pair → toAsciiLowercase host = host) {name : String} {key : κ}
    : (r.updateFromTlsPairs env pairs).1.map.lookup name = some key ↔
      ∃ pair, pairs.lookup name = some pair ∧ env.certifiedKey pair = .ok key := by
  have hperm : (inOrder pairs).Perm pairs.entries := List.mergeSort_perm _ _
  have hentry : ∀ e ∈ inOrder pairs, pairs.lookup e.1 = some e.2 := by
    intro e he
    exact AList.mem_lookup_iff.mpr (hperm.mem_iff.mp he)
  have hname : ∀ e ∈ inOrder pairs, toAsciiLowercase e.1 = e.1 := by
    intro e he
    exact hlower e.1 e.2 (hentry e he)
  unfold updateFromTlsPairs
  dsimp only
  rw [insertUsable_eq]
  generalize hl : ((inOrder pairs).filterMap fun e =>
    (env.certifiedKey e.2).toOption.map fun key => (toAsciiLowercase e.1, key)) = l
  have hmem : ∀ x : String × κ, x ∈ l ↔ ∃ pair, pairs.lookup x.1 = some pair ∧ env.certifiedKey pair = .ok x.2 := by
    intro x
    rw [← hl, List.mem_filterMap]
    constructor
    . rintro ⟨e, he, hx⟩
      obtain ⟨key', hkey, rfl⟩ := Option.map_eq_some_iff.mp hx
      dsimp only
      rw [hname e he]
      refine ⟨e.2, hentry e he, ?_⟩
      revert hkey
      cases env.certifiedKey e.2 <;> simp [Except.toOption]
    . rintro ⟨pair, hpair, hkey⟩
      refine ⟨⟨x.1, pair⟩, hperm.mem_iff.mpr (AList.mem_lookup_iff.mp hpair), ?_⟩
      rw [hkey, hlower x.1 pair hpair]
      rfl
  constructor
  . intro h
    obtain ⟨x, hx, rfl, rfl⟩ := AList.mem_of_lookup_foldl_insert h
    exact (hmem x).mp hx
  . intro h
    have hx : (name, key) ∈ l := (hmem (name, key)).mpr h
    have hkeys : (inOrder pairs).Pairwise fun a b => a.1 ≠ b.1 := by
      apply hperm.symm.pairwise _ (fun hab => hab.symm)
      exact List.pairwise_map.mp pairs.nodupKeys
    have hnodup : (l.map Prod.fst).Nodup := by
      rw [← hl, List.Nodup, List.pairwise_map, List.pairwise_filterMap]
      apply hkeys.imp_of_mem
      intro a b ha hb hne x hx y hy
      obtain ⟨-, -, rfl⟩ := Option.map_eq_some_iff.mp hx
      obtain ⟨-, -, rfl⟩ := Option.map_eq_some_iff.mp hy
      dsimp only
      rw [hname a ha, hname b hb]
      exact hne
    exact AList.lookup_foldl_insert_of_nodup Prod.snd hnodup hx

end update

end Tls

end OpenRusty
