import OpenRusty.K8s.Render.Tls
import OpenRusty.Lib.Claims

/-!
This module contains what the TLS material is rendered to: the hosts that the TLS sections of the adopted
Ingresses claim, each with the material of the Secret that its sections name. The rendering is a fold of
folds that enter claims, so the order of the Ingresses does not matter.
-/

namespace OpenRusty

variable (decode : String → Except String Bytes)

section secret

def Secret.Holds (secret : Secret) (field pem : String) : Prop :=
  (∃ value bytes, secret.data.lookup field = some value ∧ decode value = .ok bytes
    ∧ String.fromUTF8? (ByteArray.mk bytes.toArray) = some pem)
    ∧ isBlank pem = false

structure Secret.Usable (secret : Secret) (pair : TlsPair) : Prop where
  type : secret.type = some tlsType
  cert : secret.Holds decode "tls.crt" pair.certPem
  key : secret.Holds decode "tls.key" pair.keyPem

variable {decode} {owner : String} {secret : Secret}

theorem requireField_eq_ok {field pem : String}
    : requireField decode owner secret field = .ok pem
        ↔
      ∃ value bytes, secret.data.lookup field = some value ∧ decode value = .ok bytes
        ∧ String.fromUTF8? (ByteArray.mk bytes.toArray) = some pem := by
  unfold requireField decodeField
  cases secret.data.lookup field with
  | none => simp
  | some value =>
    dsimp only
    cases hdecode : decode value with
    | error e => simp [hdecode]
    | ok bytes =>
      dsimp only
      cases hpem : String.fromUTF8? (ByteArray.mk bytes.toArray) with
      | none => simp [hdecode, hpem]
      | some pem' => simp [hdecode, hpem]

theorem decodeTlsSecret_eq_ok {pair : TlsPair}
    : decodeTlsSecret decode owner secret = .ok pair ↔ secret.Usable decode pair := by
  have hfields : secret.Usable decode pair
      ↔ secret.type = some tlsType ∧ requireField decode owner secret "tls.crt" = .ok pair.certPem
        ∧ requireField decode owner secret "tls.key" = .ok pair.keyPem
        ∧ isBlank pair.certPem = false ∧ isBlank pair.keyPem = false := by
    rw [requireField_eq_ok, requireField_eq_ok]
    constructor
    . intro h
      exact ⟨h.type, h.cert.1, h.key.1, h.cert.2, h.key.2⟩
    . rintro ⟨htype, hcert, hkey, hcertText, hkeyText⟩
      exact ⟨htype, ⟨hcert, hcertText⟩, hkey, hkeyText⟩
  rw [hfields]
  obtain ⟨certPem, keyPem⟩ := pair
  by_cases htype : secret.type = some tlsType
  . cases hcert : requireField decode owner secret "tls.crt" with
    | error e => simp [decodeTlsSecret, htype, hcert, bind, Except.bind]
    | ok cert =>
      cases hkey : requireField decode owner secret "tls.key" with
      | error e => simp [decodeTlsSecret, htype, hcert, hkey, bind, Except.bind]
      | ok key =>
        have hblank : decodeTlsSecret decode owner secret = .ok { certPem := certPem, keyPem := keyPem }
            ↔ cert = certPem ∧ key = keyPem ∧ isBlank cert = false ∧ isBlank key = false := by
          unfold decodeTlsSecret
          cases hcertText : isBlank cert with
          | true => simp [htype, hcert, hkey, hcertText, bind, Except.bind, throw, throwThe, MonadExceptOf.throw]
          | false =>
            cases hkeyText : isBlank key with
            | true =>
              simp [htype, hcert, hkey, hcertText, hkeyText, bind, Except.bind, throw, throwThe, MonadExceptOf.throw]
            | false => simp [htype, hcert, hkey, hcertText, hkeyText, bind, Except.bind, pure, Except.pure]
        rw [hblank]
        constructor
        . rintro ⟨rfl, rfl, hcertText, hkeyText⟩
          exact ⟨htype, rfl, rfl, hcertText, hkeyText⟩
        . rintro ⟨-, hcertPem, hkeyPem, hcertText, hkeyText⟩
          cases hcertPem
          cases hkeyPem
          exact ⟨rfl, rfl, hcertText, hkeyText⟩
  . simp [decodeTlsSecret, htype, bind, Except.bind, throw, throwThe, MonadExceptOf.throw]

theorem Secret.Usable.unique {pair pair' : TlsPair} (h : secret.Usable decode pair)
    (h' : secret.Usable decode pair')
    : pair = pair' := by
  have hok : decodeTlsSecret decode "" secret = .ok pair := decodeTlsSecret_eq_ok.mpr h
  rw [decodeTlsSecret_eq_ok.mpr h'] at hok
  cases hok
  rfl

end secret

section claims

variable (secrets : Snapshot Secret)

def TlsReady (ns : String) (tls : IngressTls) : Prop :=
  ∀ secretName, tls.secretName = some secretName →
    ∃ secret pair, secrets.items.lookup (ns, secretName) = some secret ∧ secret.Usable decode pair

def TlsNames (ns : String) (tls : IngressTls) (host : String) (pair : TlsPair) : Prop :=
  (∃ secretName secret, tls.secretName = some secretName
    ∧ secrets.items.lookup (ns, secretName) = some secret ∧ secret.Usable decode pair)
    ∧ host ∈ tls.hosts.map normalizeHost

def TlsClaim (ns : String) (tls : IngressTls) (host : String) (pair : TlsPair) : Prop :=
  TlsNames decode secrets ns tls host pair ∧ host ≠ ""

def adopted (ingresses : Snapshot Ingress) (ingressClass : String) : List ((String × String) × Ingress) :=
  ingresses.iter.filter fun e => e.2.spec.ingressClassName == some ingressClass

def renderEntries (entries : List ((String × String) × Ingress)) : Except RenderError TlsClaims :=
  entries.foldlM
    (fun t e =>
      e.2.spec.tls.foldlM (renderTlsSection decode secrets ("ingress " ++ e.1.1 ++ "/" ++ e.1.2) e.1.1) t)
    TlsClaims.empty

theorem renderTls_eq (ingresses : Snapshot Ingress) (ingressClass : String)
    : renderTls decode ingresses secrets ingressClass
        =
      (renderEntries decode secrets (adopted ingresses ingressClass)).map TlsClaims.out := by
  change (renderEntries decode secrets (adopted ingresses ingressClass) >>= fun t => pure t.out) = _
  cases renderEntries decode secrets (adopted ingresses ingressClass) with
  | error e => rfl
  | ok t => rfl

def TlsClaims.look (t : TlsClaims) (host : String) : Option TlsPair := t.out.lookup host

theorem look_insert (t : TlsClaims) (claims : AList fun _ : String => String) (pair : TlsPair) (host key : String)
    (v : TlsPair) (h : t.look host = none ∨ t.look host = some pair)
    : TlsClaims.look { out := t.out.insert host pair, claims := claims } key = some v
        ↔
      t.look key = some v ∨ (key = host ∧ v = pair) := by
  unfold TlsClaims.look at h ⊢
  dsimp only
  by_cases hkey : key = host
  . subst hkey
    rw [AList.lookup_insert]
    rcases h with h | h
    . rw [h]
      simp [eq_comm]
    . rw [h]
      simp [eq_comm]
  . rw [AList.lookup_insert_ne hkey]
    simp [hkey]

theorem merges_claim (here : String) (pair : TlsPair)
    : Claims.Merges TlsClaims.look (fun _ => True) (fun host key v => (key = normalizeHost host ∧ key ≠ "") ∧ v = pair)
        (TlsClaims.claim here pair) := by
  constructor
  . intro t t' host _
    trivial
  . intro t t' host hok key v
    unfold TlsClaims.claim at hok
    dsimp only at hok
    split at hok
    . next hempty =>
      cases hok
      rw [String.isEmpty_iff] at hempty
      rw [hempty]
      simp
    . next hne =>
      rw [String.isEmpty_iff] at hne
      have hclaim : (key = normalizeHost host ∧ key ≠ "") ∧ v = pair ↔ key = normalizeHost host ∧ v = pair := by
        constructor
        . rintro ⟨⟨rfl, -⟩, rfl⟩
          exact ⟨rfl, rfl⟩
        . rintro ⟨rfl, rfl⟩
          exact ⟨⟨rfl, hne⟩, rfl⟩
      rw [hclaim]
      split at hok
      . next existing hlook =>
        split at hok
        . next heq =>
          subst heq
          cases hok
          exact look_insert t t.claims existing _ key v (.inr hlook)
        . cases hok
      . next hlook =>
        cases hok
        exact look_insert t _ pair _ key v (.inl hlook)
  . intro t host e herror _
    unfold TlsClaims.claim at herror
    dsimp only at herror
    split at herror
    . cases herror
    . next hne =>
      rw [String.isEmpty_iff] at hne
      split at herror
      . next existing hlook =>
        split at herror
        . cases herror
        . next hdiffers => exact ⟨normalizeHost host, existing, pair, hdiffers, .inl hlook, ⟨rfl, hne⟩, rfl⟩
      . cases herror

variable {decode} {secrets} {ns : String} {tls : IngressTls}

theorem tlsClaim_iff {secretName : String} {secret : Secret} {pair : TlsPair}
    (hname : tls.secretName = some secretName) (hsecret : secrets.items.lookup (ns, secretName) = some secret)
    (husable : secret.Usable decode pair) (key : String) (v : TlsPair)
    : TlsClaim decode secrets ns tls key v
        ↔
      ∃ host ∈ tls.hosts, (key = normalizeHost host ∧ key ≠ "") ∧ v = pair := by
  unfold TlsClaim TlsNames
  rw [List.mem_map]
  constructor
  . rintro ⟨⟨⟨secretName', secret', hname', hsecret', husable'⟩, host, hhost, rfl⟩, hne⟩
    rw [hname] at hname'
    cases hname'
    rw [hsecret] at hsecret'
    cases hsecret'
    exact ⟨host, hhost, ⟨rfl, hne⟩, husable'.unique husable⟩
  . rintro ⟨host, hhost, ⟨rfl, hne⟩, rfl⟩
    exact ⟨⟨⟨secretName, secret, hname, hsecret, husable⟩, host, hhost, rfl⟩, hne⟩

theorem renderTlsSection_cases (owner : String) (t : TlsClaims)
    : (tls.secretName = none ∧ renderTlsSection decode secrets owner ns t tls = .ok t)
        ∨ (¬TlsReady decode secrets ns tls ∧ ∃ e, renderTlsSection decode secrets owner ns t tls = .error e)
        ∨ ∃ secretName secret pair here, tls.secretName = some secretName
          ∧ secrets.items.lookup (ns, secretName) = some secret ∧ secret.Usable decode pair
          ∧ renderTlsSection decode secrets owner ns t tls = tls.hosts.foldlM (TlsClaims.claim here pair) t := by
  unfold renderTlsSection
  cases hname : tls.secretName with
  | none => exact .inl ⟨rfl, rfl⟩
  | some secretName =>
    right
    dsimp only
    cases hsecret : secrets.items.lookup (ns, secretName) with
    | none =>
      left
      refine ⟨?_, _, rfl⟩
      intro hready
      obtain ⟨secret, -, hlook, -⟩ := hready secretName hname
      rw [hsecret] at hlook
      cases hlook
    | some secret =>
      dsimp only
      cases hdecode : decodeTlsSecret decode owner secret with
      | error e =>
        left
        refine ⟨?_, e, rfl⟩
        intro hready
        obtain ⟨secret', pair, hlook, husable⟩ := hready secretName hname
        rw [hsecret] at hlook
        cases hlook
        rw [decodeTlsSecret_eq_ok.mpr husable] at hdecode
        cases hdecode
      | ok pair =>
        right
        exact ⟨secretName, secret, pair, _, rfl, hsecret, decodeTlsSecret_eq_ok.mp hdecode, rfl⟩

theorem merges_section (owner : String)
    : Claims.Merges TlsClaims.look (TlsReady decode secrets ns) (TlsClaim decode secrets ns)
        (renderTlsSection decode secrets owner ns) := by
  constructor
  . intro t t' tls hok
    rcases renderTlsSection_cases owner t with
      ⟨hnone, -⟩ | ⟨-, e, herror⟩ | ⟨secretName, secret, pair, here, hname, hsecret, husable, -⟩
    . intro secretName hname
      rw [hnone] at hname
      cases hname
    . rw [herror] at hok
      cases hok
    . intro secretName' hname'
      rw [hname] at hname'
      cases hname'
      exact ⟨secret, pair, hsecret, husable⟩
  . intro t t' tls hok key v
    rcases renderTlsSection_cases owner t with
      ⟨hnone, hsame⟩ | ⟨-, e, herror⟩ | ⟨secretName, secret, pair, here, hname, hsecret, husable, hfold⟩
    . rw [hsame] at hok
      cases hok
      unfold TlsClaim TlsNames
      rw [hnone]
      simp
    . rw [herror] at hok
      cases hok
    . rw [hfold] at hok
      rw [tlsClaim_iff hname hsecret husable]
      exact (merges_claim here pair).foldlM.look_of_ok hok key v
  . intro t tls e herror hready
    rcases renderTlsSection_cases owner t with
      ⟨-, hsame⟩ | ⟨hnot, -⟩ | ⟨secretName, secret, pair, here, hname, hsecret, husable, hfold⟩
    . rw [hsame] at herror
      cases herror
    . exact absurd hready hnot
    . rw [hfold] at herror
      have hclaim := tlsClaim_iff hname hsecret husable
      obtain ⟨key, v, w, hne, hv, hw⟩ := (merges_claim here pair).foldlM.conflict herror fun _ _ => trivial
      exact ⟨key, v, w, hne, hv.imp_right (hclaim key v).mpr, (hclaim key w).mpr hw⟩

def Claimed (decode : String → Except String Bytes) (secrets : Snapshot Secret)
    (entries : List ((String × String) × Ingress)) (host : String) (pair : TlsPair)
    : Prop :=
  ∃ e ∈ entries, ∃ tls ∈ e.2.spec.tls, TlsClaim decode secrets e.1.1 tls host pair

def Ready (decode : String → Except String Bytes) (secrets : Snapshot Secret)
    (entries : List ((String × String) × Ingress))
    : Prop :=
  ∀ e ∈ entries, ∀ tls ∈ e.2.spec.tls, TlsReady decode secrets e.1.1 tls

theorem merges_entries
    : Claims.Merges TlsClaims.look (Ready decode secrets) (Claimed decode secrets)
        (fun t (entries : List ((String × String) × Ingress)) => entries.foldlM
          (fun t e =>
            e.2.spec.tls.foldlM (renderTlsSection decode secrets ("ingress " ++ e.1.1 ++ "/" ++ e.1.2) e.1.1) t) t) := by
  apply Claims.Merges.foldlM
  constructor
  . intro t t' e hok
    exact (merges_section _).foldlM.good_of_ok hok
  . intro t t' e hok
    exact (merges_section _).foldlM.look_of_ok hok
  . intro t e err herror
    exact (merges_section _).foldlM.conflict herror

theorem claimed_perm {entries entries' : List ((String × String) × Ingress)} (h : entries.Perm entries')
    (host : String) (pair : TlsPair)
    : Claimed decode secrets entries host pair ↔ Claimed decode secrets entries' host pair := by
  unfold Claimed
  simp only [h.mem_iff]

theorem ready_perm {entries entries' : List ((String × String) × Ingress)} (h : entries.Perm entries')
    : Ready decode secrets entries ↔ Ready decode secrets entries' := by
  unfold Ready
  simp only [h.mem_iff]

theorem renderEntries_isOk (entries : List ((String × String) × Ingress))
    : (∃ t, renderEntries decode secrets entries = .ok t)
        ↔
      Ready decode secrets entries
        ∧ ∀ host p q, Claimed decode secrets entries host p → Claimed decode secrets entries host q → p = q := by
  apply merges_entries.isOk_iff
  intro host
  rfl

theorem lookup_renderEntries {entries : List ((String × String) × Ingress)} {t : TlsClaims}
    (h : renderEntries decode secrets entries = .ok t) (host : String) (pair : TlsPair)
    : t.out.lookup host = some pair ↔ Claimed decode secrets entries host pair := by
  apply merges_entries.look_iff _ h
  intro host
  rfl

theorem renderEntries_perm {entries entries' : List ((String × String) × Ingress)} (h : entries.Perm entries')
    (host : String)
    : (renderEntries decode secrets entries).toOption.map (fun t => t.out.lookup host)
        =
      (renderEntries decode secrets entries').toOption.map fun t => t.out.lookup host := by
  have hok : (∃ t, renderEntries decode secrets entries = .ok t)
      ↔ ∃ t, renderEntries decode secrets entries' = .ok t := by
    rw [renderEntries_isOk, renderEntries_isOk, ready_perm h]
    simp only [claimed_perm h]
  cases hleft : renderEntries decode secrets entries with
  | error e =>
    cases hright : renderEntries decode secrets entries' with
    | error e' => rfl
    | ok t' =>
      obtain ⟨t, ht⟩ := hok.mpr ⟨t', hright⟩
      rw [hleft] at ht
      cases ht
  | ok t =>
    obtain ⟨t', hright⟩ := hok.mp ⟨t, hleft⟩
    have hsame : t.out.lookup host = t'.out.lookup host := by
      apply Option.ext
      intro pair
      rw [lookup_renderEntries hleft, lookup_renderEntries hright, claimed_perm h]
    rw [hright]
    exact congrArg some hsame

end claims

theorem renderTls_claims (decode : String → Except String Bytes) (ingresses : Snapshot Ingress)
    (secrets : Snapshot Secret) (ingressClass : String)
    : ((∃ m, renderTls decode ingresses secrets ingressClass = .ok m)
        ↔
      Ready decode secrets (adopted ingresses ingressClass)
        ∧ ∀ host p q, Claimed decode secrets (adopted ingresses ingressClass) host p →
          Claimed decode secrets (adopted ingresses ingressClass) host q → p = q)
        ∧
      (∀ m, renderTls decode ingresses secrets ingressClass = .ok m → ∀ host pair,
        m.lookup host = some pair ↔ Claimed decode secrets (adopted ingresses ingressClass) host pair)
        ∧
      ∀ entries : List ((String × String) × Ingress), entries.Perm (adopted ingresses ingressClass) → ∀ host,
        (renderEntries decode secrets entries).toOption.map (fun t => t.out.lookup host)
          = (renderTls decode ingresses secrets ingressClass).toOption.map fun m => m.lookup host := by
  rw [renderTls_eq]
  refine ⟨?_, ?_, ?_⟩
  . rw [← renderEntries_isOk]
    constructor
    . rintro ⟨m, hm⟩
      obtain ⟨t, ht, -⟩ := Except.map_eq_ok.mp hm
      exact ⟨t, ht⟩
    . rintro ⟨t, ht⟩
      exact ⟨t.out, Except.map_eq_ok.mpr ⟨t, ht, rfl⟩⟩
  . intro m hm host pair
    obtain ⟨t, ht, rfl⟩ := Except.map_eq_ok.mp hm
    exact lookup_renderEntries ht host pair
  . intro entries hperm host
    rw [renderEntries_perm hperm host]
    cases renderEntries decode secrets (adopted ingresses ingressClass) with
    | error e => rfl
    | ok t => rfl

def Named (decode : String → Except String Bytes) (secrets : Snapshot Secret)
    (entries : List ((String × String) × Ingress)) (host : String) (pair : TlsPair)
    : Prop :=
  ∃ e ∈ entries, ∃ tls ∈ e.2.spec.tls, TlsNames decode secrets e.1.1 tls host pair

def decodeText (value : String) : Except String Bytes := .ok value.toUTF8.toList

def tlsSecret (name pem : String) : Secret where
  metadata := { name := name, nspace := "web" }
  type := some tlsType
  data := [("tls.crt", pem), ("tls.key", pem)]

def tlsSecrets : Snapshot Secret := .replaceFromList [tlsSecret "a" "A", tlsSecret "b" "B"] "1"

def ingressOf (ingressClass : String) (tls : List IngressTls) : Snapshot Ingress :=
  .replaceFromList [{
    metadata := { name := "a", nspace := "web" }
    spec := { ingressClassName := some ingressClass, tls := tls }
  }] "1"

def otherClass : Snapshot Ingress := ingressOf "other" [{ hosts := ["a.test"], secretName := some "absent" }]

def blankHosts : Snapshot Ingress :=
  ingressOf "openrusty" [{ hosts := [" "], secretName := some "a" }, { hosts := [""], secretName := some "b" }]

theorem renderTls_skips
    : ((∃ m, renderTls decodeText otherClass tlsSecrets "openrusty" = .ok m)
          ∧ ¬Ready decodeText tlsSecrets otherClass.iter)
        ∧
      (∃ m, renderTls decodeText blankHosts tlsSecrets "openrusty" = .ok m)
        ∧ ¬∀ host p q, Named decodeText tlsSecrets blankHosts.iter host p →
          Named decodeText tlsSecrets blankHosts.iter host q → p = q := by
  have hok {x : Except RenderError (AList fun _ : String => TlsPair)} (h : x.toOption.isSome = true)
      : ∃ m, x = .ok m := by
    cases x with
    | error e => cases h
    | ok m => exact ⟨m, rfl⟩
  have husable (pem : String) (name : String) (h : decodeTlsSecret decodeText "" (tlsSecret name pem)
      = .ok { certPem := pem, keyPem := pem })
      : (tlsSecret name pem).Usable decodeText { certPem := pem, keyPem := pem } :=
    decodeTlsSecret_eq_ok.mp h
  refine ⟨⟨hok (by decide +kernel), ?_⟩, hok (by decide +kernel), ?_⟩
  . intro hready
    obtain ⟨secret, -, hsecret, -⟩ := hready (("web", "a"), _) (List.mem_singleton.mpr rfl) _
      (List.mem_singleton.mpr rfl) "absent" rfl
    cases hsecret
  . intro hagree
    have ha : Named decodeText tlsSecrets blankHosts.iter "" { certPem := "A", keyPem := "A" } :=
      ⟨(("web", "a"), _), List.mem_singleton.mpr rfl, { hosts := [" "], secretName := some "a" }, by simp,
        ⟨"a", tlsSecret "a" "A", rfl, by decide +kernel, husable "A" "a" (by decide +kernel)⟩, by decide +kernel⟩
    have hb : Named decodeText tlsSecrets blankHosts.iter "" { certPem := "B", keyPem := "B" } :=
      ⟨(("web", "a"), _), List.mem_singleton.mpr rfl, { hosts := [""], secretName := some "b" }, by simp,
        ⟨"b", tlsSecret "b" "B", rfl, by decide +kernel, husable "B" "b" (by decide +kernel)⟩, by decide +kernel⟩
    have := hagree "" _ _ ha hb
    simp at this

end OpenRusty
