import OpenRusty.Wasm.Resolve
import OpenRusty.Wasm.Session.Refinement

/-!
This module contains the proof that a request gets a module that was on disk during the request, and that
a name is compiled by one request at a time. Both rest on what every step of a request leaves true of the
cache and the gates.
-/

namespace OpenRusty

namespace ModuleDir

variable {dir : ModuleDir} {name : String}

theorem file_concat (dir : ModuleDir) (m : String) (f : Option ModuleFile) (name : String)
    : file (dir ++ [(m, f)]) name = if name = m then f else file dir name := by
  unfold file
  rw [List.reverse_append, List.reverse_singleton, List.singleton_append, List.lookup_cons]
  by_cases h : name = m
  . simp [h]
  . rw [if_neg h, beq_false_of_ne h]

theorem fileAt_succ_of_ne {n : Nat} (h : ∀ f, dir[n]? ≠ some (name, f))
    : dir.fileAt (n + 1) name = dir.fileAt n name := by
  unfold fileAt
  rw [List.take_add_one]
  cases hn : dir[n]? with
  | none => simp
  | some x =>
    rcases x with ⟨m, f⟩
    rw [Option.toList_some, file_concat, if_neg]
    rintro rfl
    exact h f hn

theorem fileAt_succ {n : Nat} {f : Option ModuleFile} (h : dir[n]? = some (name, f))
    : dir.fileAt (n + 1) name = f := by
  unfold fileAt
  rw [List.take_add_one, h, Option.toList_some, file_concat, if_pos rfl]

theorem fileAt_of_quiet {m n : Nat} (hle : m ≤ n)
    (h : ∀ j, m ≤ j → j < n → ∀ f, dir[j]? ≠ some (name, f))
    : dir.fileAt n name = dir.fileAt m name := by
  induction n, hle using Nat.le_induction with
  | base => rfl
  | succ n hle ih =>
    rw [fileAt_succ_of_ne (h n hle (by omega))]
    apply ih
    intro j hj hlt
    exact h j hj (by omega)

theorem exists_change {n : Nat} {f : ModuleFile} (h : dir.fileAt n name = some f)
    : ∃ i, i < n ∧ dir[i]? = some (name, some f)
      ∧ ∀ j, i + 1 ≤ j → j < n → ∀ g, dir[j]? ≠ some (name, g) := by
  induction n with
  | zero => simp [fileAt, file] at h
  | succ n ih =>
    by_cases hn : ∃ g, dir[n]? = some (name, g)
    . rcases hn with ⟨g, hg⟩
      rw [fileAt_succ hg] at h
      subst h
      refine ⟨n, by omega, hg, ?_⟩
      intro j hj hlt
      omega
    . rw [not_exists] at hn
      rw [fileAt_succ_of_ne hn] at h
      rcases ih h with ⟨i, hi, hchange, hquiet⟩
      refine ⟨i, by omega, hchange, ?_⟩
      intro j hj hlt
      by_cases hjn : j = n
      . subst hjn
        exact hn
      . exact hquiet j hj (by omega)

def NoVersionTwice (dir : ModuleDir) : Prop :=
  ∀ (i j : Nat) name f g, dir[i]? = some (name, some f) → dir[j]? = some (name, some g) →
    f.version = g.version → i = j

theorem NoVersionTwice.unchanged (h : dir.NoVersionTwice) {s n s' : Nat} {f f' : ModuleFile}
    (hs : dir.fileAt s name = some f) (hs' : dir.fileAt s' name = some f')
    (hversion : f.version = f'.version) (hsn : s ≤ n) (hns' : n ≤ s')
    : dir.fileAt s' name = dir.fileAt n name := by
  rcases exists_change hs with ⟨i, hi, hchange, -⟩
  rcases exists_change hs' with ⟨i', hi', hchange', hquiet⟩
  have heq := h i i' name f f' hchange hchange' hversion
  apply fileAt_of_quiet hns'
  intro j hj hlt
  exact hquiet j (by omega) hlt

theorem fileAt_append (dir more : ModuleDir) {n : Nat} (h : n ≤ dir.length) (name : String)
    : (dir ++ more).fileAt n name = dir.fileAt n name := by
  unfold fileAt
  rw [List.take_append_of_le_length h]

theorem fileAt_length (dir : ModuleDir) (name : String) : dir.fileAt dir.length name = dir.file name := by
  unfold fileAt
  rw [List.take_length]

def NewVersion (dir : ModuleDir) (name : String) (file : Option ModuleFile) : Prop :=
  ∀ f ∈ file, ∀ x ∈ dir, x.1 = name → ∀ g ∈ x.2, g.version ≠ f.version

instance (dir : ModuleDir) (name : String) (file : Option ModuleFile)
    : Decidable (dir.NewVersion name file) :=
  inferInstanceAs (Decidable (∀ f ∈ file, ∀ x ∈ dir, x.1 = name → ∀ g ∈ x.2, g.version ≠ f.version))

theorem NoVersionTwice.change (h : dir.NoVersionTwice) {file : Option ModuleFile}
    (hnew : dir.NewVersion name file)
    : NoVersionTwice (dir ++ [(name, file)]) := by
  have hcases (k : Nat) (x : String × Option ModuleFile) (hk : (dir ++ [(name, file)])[k]? = some x)
      : dir[k]? = some x ∨ k = dir.length ∧ x = (name, file) := by
    rw [List.getElem?_append] at hk
    split at hk
    . exact .inl hk
    . rw [List.getElem?_singleton] at hk
      split at hk
      . cases hk
        exact .inr ⟨by omega, rfl⟩
      . cases hk
  intro i j m f g hi hj hversion
  rcases hcases i _ hi with hi' | ⟨rfl, heq⟩
  . rcases hcases j _ hj with hj' | ⟨rfl, heq⟩
    . exact h i j m f g hi' hj' hversion
    . cases heq
      exact absurd hversion (hnew g rfl (name, some f) (List.mem_of_getElem? hi') rfl f rfl)
  . rcases hcases j _ hj with hj' | ⟨rfl, -⟩
    . cases heq
      exact absurd hversion.symm (hnew f rfl (name, some g) (List.mem_of_getElem? hj') rfl g rfl)
    . rfl

end ModuleDir

def CompiledBetween {γ ω : Type} (env : CompileEnv γ ω) (dir : ModuleDir) (name : String) (m n : Nat)
    (module : WasmModule γ ω) (hasDealloc : Bool) : Prop :=
  ∃ k f, m ≤ k ∧ k ≤ n ∧ k ≤ dir.length ∧ dir.fileAt k name = some f
    ∧ env.compileBytes f.bytes = .ok (module, hasDealloc)

def Seen (dir : ModuleDir) (name : String) (m : Nat) (version : Nat × Nat × Nat) : Prop :=
  m ≤ dir.length ∧ ∃ f, dir.fileAt m name = some f ∧ f.version = version

section env

variable {γ ω : Type} {env : CompileEnv γ ω} {dir more : ModuleDir} {name : String} {m n : Nat}
  {version : Nat × Nat × Nat} {module : WasmModule γ ω} {hasDealloc : Bool}

theorem CompiledBetween.append (h : CompiledBetween env dir name m n module hasDealloc)
    : CompiledBetween env (dir ++ more) name m n module hasDealloc := by
  rcases h with ⟨k, f, hm, hn, hk, hf, hcompile⟩
  refine ⟨k, f, hm, hn, ?_, ?_, hcompile⟩
  . rw [List.length_append]
    omega
  . rw [ModuleDir.fileAt_append dir more hk]
    exact hf

theorem CompiledBetween.mono {n' : Nat} (h : CompiledBetween env dir name m n module hasDealloc)
    (hle : n ≤ n')
    : CompiledBetween env dir name m n' module hasDealloc := by
  rcases h with ⟨k, f, hm, hn, hk, hf, hcompile⟩
  exact ⟨k, f, hm, Nat.le_trans hn hle, hk, hf, hcompile⟩

theorem Seen.append (h : Seen dir name m version) : Seen (dir ++ more) name m version := by
  rcases h with ⟨hm, f, hf, hversion⟩
  refine ⟨?_, f, ?_, hversion⟩
  . rw [List.length_append]
    omega
  . rw [ModuleDir.fileAt_append dir more hm]
    exact hf

def Cached (env : CompileEnv γ ω) (dir : ModuleDir) (name : String) (c : CachedModule γ ω) : Prop :=
  ∃ m, Seen dir name m c.version
    ∧ CompiledBetween env dir name m dir.length c.plugin.module c.plugin.hasDealloc

theorem Cached.append {c : CachedModule γ ω} (h : Cached env dir name c)
    : Cached env (dir ++ more) name c := by
  rcases h with ⟨m, hseen, hcompiled⟩
  refine ⟨m, hseen.append, ?_⟩
  apply hcompiled.append.mono
  rw [List.length_append]
  omega

theorem Cached.between {c : CachedModule γ ω} (h : Cached env dir name c) (hdir : dir.NoVersionTwice)
    (hseen : Seen dir name m c.version)
    : CompiledBetween env dir name m dir.length c.plugin.module c.plugin.hasDealloc := by
  rcases h with ⟨s, ⟨hs, f, hf, hversion⟩, k, g, hsk, -, hk, hg, hcompile⟩
  rcases hseen with ⟨hm, f', hf', hversion'⟩
  by_cases hkm : m ≤ k
  . exact ⟨k, g, hkm, hk, hk, hg, hcompile⟩
  . refine ⟨m, g, Nat.le_refl m, hm, hm, ?_, hcompile⟩
    rw [hdir.unchanged hf hf' (hversion.trans hversion'.symm) hsk (by omega)]
    exact hg

end env

structure DynamicRegistry.Sound {γ ω : Type} (env : CompileEnv γ ω) (reg : DynamicRegistry γ ω)
    : Prop where
  versions : reg.dir.NoVersionTwice
  cached : ∀ name c, reg.cache.lookup name = some c → Cached env reg.dir name c

namespace Resolve

variable {γ ω : Type}

def Sound (env : CompileEnv γ ω) (dir : ModuleDir) (t : Resolve γ ω) : Prop :=
  match t.state with
  | .checking version | .waiting version | .gated version | .reading version =>
    Seen dir t.name t.begun version
  | .compiling version bytes =>
    Seen dir t.name t.begun version
      ∧ ∃ k f, t.begun ≤ k ∧ k ≤ dir.length ∧ dir.fileAt k t.name = some f ∧ f.bytes = bytes
  | .built version result =>
    Seen dir t.name t.begun version
      ∧ ∀ module hasDealloc, result = .ok (module, hasDealloc) →
        CompiledBetween env dir t.name t.begun dir.length module hasDealloc
  | .leaving result =>
    ∀ plugin, result = .ok plugin →
      CompiledBetween env dir t.name t.begun dir.length plugin.module plugin.hasDealloc
  | .returned result =>
    ∀ plugin, result = .ok plugin →
      CompiledBetween env dir t.name t.begun t.ended plugin.module plugin.hasDealloc
  | _ => True

theorem Sound.append {env : CompileEnv γ ω} {dir more : ModuleDir} {t : Resolve γ ω}
    (h : t.Sound env dir)
    : t.Sound env (dir ++ more) := by
  have hlen : dir.length ≤ (dir ++ more).length := by
    rw [List.length_append]
    omega
  rcases t with ⟨name, begun, ended, state⟩
  cases state with
  | checking version => exact Seen.append h
  | waiting version => exact Seen.append h
  | gated version => exact Seen.append h
  | reading version => exact Seen.append h
  | compiling version bytes =>
    rcases h with ⟨hseen, k, f, hbegun, hk, hf, hbytes⟩
    refine ⟨hseen.append, k, f, hbegun, by omega, ?_, hbytes⟩
    rw [ModuleDir.fileAt_append dir more hk]
    exact hf
  | built version result =>
    rcases h with ⟨hseen, hcompiled⟩
    refine ⟨hseen.append, ?_⟩
    intro module hasDealloc hresult
    exact (hcompiled module hasDealloc hresult).append.mono hlen
  | leaving result =>
    intro plugin hresult
    exact (h plugin hresult).append.mono hlen
  | returned result =>
    intro plugin hresult
    exact (h plugin hresult).append
  | _ => trivial

variable {env : CompileEnv γ ω} {cfg : DynamicConfig} {reg reg' : DynamicRegistry γ ω}
  {t t' : Resolve γ ω} {x : ResolveInput}

theorem hit_sound (h : reg.Sound env) {name : String} {m : Nat} {version : Nat × Nat × Nat}
    (hseen : Seen reg.dir name m version) {plugin : RegisteredPlugin γ ω}
    (hhit : reg.hit name version = some plugin)
    : CompiledBetween env reg.dir name m reg.dir.length plugin.module plugin.hasDealloc := by
  unfold DynamicRegistry.hit at hhit
  rcases Option.map_eq_some_iff.mp hhit with ⟨c, hc, rfl⟩
  rcases Option.filter_eq_some_iff.mp hc with ⟨hlookup, hversion⟩
  rw [beq_iff_eq] at hversion
  subst hversion
  exact (h.cached name c hlookup).between h.versions hseen

theorem sound_cached (h : reg.Sound env) {name : String} {m : Nat} {version : Nat × Nat × Nat}
    (hseen : Seen reg.dir name m version) {module : WasmModule γ ω} {hasDealloc : Bool}
    (hcompiled : CompiledBetween env reg.dir name m reg.dir.length module hasDealloc)
    : (reg.cached cfg name version module hasDealloc).1.Sound env where
  versions := h.versions
  cached := by
    intro name' c hc
    change (reg.cache.insert name _).lookup name' = some c at hc
    by_cases hname : name' = name
    . subst hname
      rw [AList.lookup_insert] at hc
      cases hc
      exact ⟨m, hseen, hcompiled⟩
    . rw [AList.lookup_insert_ne hname] at hc
      exact h.cached name' c hc

theorem sound_erase (h : reg.Sound env) (name : String)
    : DynamicRegistry.Sound env { reg with cache := reg.cache.erase name } where
  versions := h.versions
  cached := by
    intro name' c hc
    apply h.cached name' c
    change (reg.cache.erase name).lookup name' = some c at hc
    by_cases hname : name' = name
    . subst hname
      rw [AList.lookup_erase] at hc
      cases hc
    . rw [AList.lookup_erase_ne hname] at hc
      exact hc

theorem sound_unlock (h : reg.Sound env) (name : String) : (reg.unlock name).Sound env where
  versions := h.versions
  cached := h.cached

theorem sound_counted (h : reg.Sound env)
    : DynamicRegistry.Sound env { reg with compiled := reg.compiled + 1 } where
  versions := h.versions
  cached := h.cached

structure SoundAfter (env : CompileEnv γ ω) (reg reg' : DynamicRegistry γ ω) (t : Resolve γ ω) : Prop where
  registry : reg'.Sound env
  request : t.Sound env reg'.dir
  dir : reg'.dir = reg.dir

section states

variable {name : String} {begun ended : Nat} {version : Nat × Nat × Nat}

theorem sound_start (hreg : reg.Sound env)
    (h : act env cfg reg ⟨name, begun, ended, .start⟩ x = some (reg', t'))
    : SoundAfter env reg reg' t' := by
  cases x with
  | run =>
    unfold act at h
    dsimp only at h
    split at h
    . cases h
      exact ⟨hreg, fun _ hok => (nomatch hok), rfl⟩
    . split at h
      . next f hf =>
        cases h
        refine ⟨hreg, ⟨Nat.le_refl _, f, ?_, rfl⟩, rfl⟩
        rw [ModuleDir.fileAt_length]
        exact hf
      . cases h
        exact ⟨hreg, trivial, rfl⟩
  | _ => cases h

theorem sound_evicting (hreg : reg.Sound env)
    (h : act env cfg reg ⟨name, begun, ended, .evicting⟩ x = some (reg', t'))
    : SoundAfter env reg reg' t' := by
  cases x with
  | run =>
    cases h
    exact ⟨sound_erase hreg name, fun _ hok => (nomatch hok), rfl⟩
  | _ => cases h

theorem sound_checking (hreg : reg.Sound env) (hseen : Seen reg.dir name begun version)
    (h : act env cfg reg ⟨name, begun, ended, .checking version⟩ x = some (reg', t'))
    : SoundAfter env reg reg' t' := by
  cases x with
  | run =>
    unfold act at h
    dsimp only at h
    split at h
    . next plugin hhit =>
      cases h
      refine ⟨hreg, ?_, rfl⟩
      intro plugin' hok
      cases hok
      exact hit_sound hreg hseen hhit
    . cases h
      exact ⟨hreg, hseen, rfl⟩
  | _ => cases h

theorem sound_waiting (hreg : reg.Sound env) (hseen : Seen reg.dir name begun version)
    (h : act env cfg reg ⟨name, begun, ended, .waiting version⟩ x = some (reg', t'))
    : SoundAfter env reg reg' t' := by
  cases x with
  | run =>
    unfold act at h
    dsimp only at h
    split at h
    . cases h
    . cases h
      exact ⟨⟨hreg.versions, hreg.cached⟩, hseen, rfl⟩
  | drop =>
    cases h
    exact ⟨hreg, trivial, rfl⟩
  | crash detail => cases h

theorem sound_gated (hreg : reg.Sound env) (hseen : Seen reg.dir name begun version)
    (h : act env cfg reg ⟨name, begun, ended, .gated version⟩ x = some (reg', t'))
    : SoundAfter env reg reg' t' := by
  cases x with
  | run =>
    unfold act at h
    dsimp only at h
    split at h
    . next plugin hhit =>
      cases h
      refine ⟨hreg, ?_, rfl⟩
      intro plugin' hok
      cases hok
      exact hit_sound hreg hseen hhit
    . cases h
      exact ⟨hreg, hseen, rfl⟩
  | _ => cases h

theorem sound_reading (hreg : reg.Sound env) (hseen : Seen reg.dir name begun version)
    (h : act env cfg reg ⟨name, begun, ended, .reading version⟩ x = some (reg', t'))
    : SoundAfter env reg reg' t' := by
  cases x with
  | run =>
    unfold act at h
    dsimp only at h
    split at h
    . next f hf =>
      cases h
      refine ⟨hreg, ⟨hseen, reg.dir.length, f, hseen.1, Nat.le_refl _, ?_, rfl⟩, rfl⟩
      rw [ModuleDir.fileAt_length]
      exact hf
    . cases h
      exact ⟨hreg, ⟨hseen, fun _ _ hok => (nomatch hok)⟩, rfl⟩
  | crash detail =>
    cases h
    exact ⟨hreg, ⟨hseen, fun _ _ hok => (nomatch hok)⟩, rfl⟩
  | drop =>
    cases h
    exact ⟨sound_unlock hreg name, trivial, rfl⟩

theorem sound_compiling {bytes : Bytes} (hreg : reg.Sound env)
    (ht : Sound env reg.dir ⟨name, begun, ended, .compiling version bytes⟩)
    (h : act env cfg reg ⟨name, begun, ended, .compiling version bytes⟩ x = some (reg', t'))
    : SoundAfter env reg reg' t' := by
  rcases ht with ⟨hseen, k, f, hbegun, hk, hf, hbytes⟩
  cases x with
  | run =>
    cases h
    refine ⟨hreg, ⟨hseen, ?_⟩, rfl⟩
    intro module hasDealloc hok
    rw [← hbytes] at hok
    exact ⟨k, f, hbegun, hk, hk, hf, hok⟩
  | crash detail =>
    cases h
    exact ⟨hreg, ⟨hseen, fun _ _ hok => (nomatch hok)⟩, rfl⟩
  | drop =>
    cases h
    exact ⟨sound_unlock hreg name, trivial, rfl⟩

theorem sound_built {result : Except String (WasmModule γ ω × Bool)} (hreg : reg.Sound env)
    (ht : Sound env reg.dir ⟨name, begun, ended, .built version result⟩)
    (h : act env cfg reg ⟨name, begun, ended, .built version result⟩ x = some (reg', t'))
    : SoundAfter env reg reg' t' := by
  rcases ht with ⟨hseen, hcompiled⟩
  cases x with
  | run =>
    cases result with
    | ok built =>
      rcases built with ⟨module, hasDealloc⟩
      cases h
      have hbetween := hcompiled module hasDealloc rfl
      refine ⟨sound_cached (sound_counted hreg) hseen hbetween, ?_, rfl⟩
      intro plugin hok
      cases hok
      exact hbetween
    | error e =>
      cases h
      exact ⟨sound_counted hreg, fun _ hok => (nomatch hok), rfl⟩
  | drop =>
    cases h
    exact ⟨sound_unlock hreg name, trivial, rfl⟩
  | crash detail => cases h

theorem sound_leaving {result : Except ResolveFail (RegisteredPlugin γ ω)} (hreg : reg.Sound env)
    (ht : Sound env reg.dir ⟨name, begun, ended, .leaving result⟩)
    (h : act env cfg reg ⟨name, begun, ended, .leaving result⟩ x = some (reg', t'))
    : SoundAfter env reg reg' t' := by
  cases x with
  | run =>
    cases h
    exact ⟨sound_unlock hreg name, ht, rfl⟩
  | _ => cases h

theorem sound_detached (hreg : reg.Sound env)
    (h : act env cfg reg ⟨name, begun, ended, .detached⟩ x = some (reg', t'))
    : SoundAfter env reg reg' t' := by
  cases x with
  | run =>
    cases h
    exact ⟨hreg, trivial, rfl⟩
  | _ => cases h

end states

theorem sound_act (hreg : reg.Sound env) (ht : t.Sound env reg.dir)
    (h : t.act env cfg reg x = some (reg', t'))
    : SoundAfter env reg reg' t' := by
  rcases t with ⟨name, begun, ended, state⟩
  cases state with
  | start => exact sound_start hreg h
  | evicting => exact sound_evicting hreg h
  | checking version => exact sound_checking hreg ht h
  | waiting version => exact sound_waiting hreg ht h
  | gated version => exact sound_gated hreg ht h
  | reading version => exact sound_reading hreg ht h
  | compiling version bytes => exact sound_compiling hreg ht h
  | built version result => exact sound_built hreg ht h
  | leaving result => exact sound_leaving hreg ht h
  | returned result => cases h
  | detached => exact sound_detached hreg h
  | dropped => cases h

/-- The gate of its name is locked by the request. -/
def holds (t : Resolve γ ω) : Bool :=
  match t.state with
  | .gated _ | .reading _ | .compiling .. | .built .. | .leaving _ => true
  | _ => false

def compiles (t : Resolve γ ω) : Bool :=
  match t.state with
  | .reading _ | .compiling .. | .detached => true
  | _ => false

def isDetached (t : Resolve γ ω) : Bool :=
  match t.state with
  | .detached => true
  | _ => false

theorem gates_act (h : t.act env cfg reg x = some (reg', t'))
    : t'.name = t.name
      ∧ (reg'.gates = reg.gates ∧ t'.holds = t.holds
        ∨ t.name ∉ reg.gates ∧ reg'.gates = insert t.name reg.gates ∧ t.holds = false ∧ t'.holds = true
        ∨ reg'.gates = reg.gates.erase t.name ∧ t.holds = true ∧ t'.holds = false) := by
  rcases t with ⟨name, begun, ended, state⟩
  cases state <;> cases x <;> simp only [act, reduceCtorEq] at h
  all_goals grind [holds, DynamicRegistry.unlock, DynamicRegistry.cached]

theorem attached_act (hdrop : x = .drop → t.compiles = false)
    (h : t.act env cfg reg x = some (reg', t'))
    : t'.isDetached = false := by
  rcases t with ⟨name, begun, ended, state⟩
  cases state <;> cases x <;> simp only [act, reduceCtorEq] at h
  all_goals grind [isDetached, compiles]

end Resolve

namespace DirTask

variable {γ ω : Type}

def Sound (env : CompileEnv γ ω) (dir : ModuleDir) (t : DirTask γ ω) : Prop :=
  match t with
  | .resolve t => t.Sound env dir
  | _ => True

/-- A replacement of a module file gives it a version that it has not had before. -/
def Renews (dir : ModuleDir) (t : DirTask γ ω) : Prop :=
  match t with
  | .change name file => dir.NewVersion name file
  | _ => True

instance (dir : ModuleDir) (t : DirTask γ ω) : Decidable (t.Renews dir) :=
  match t with
  | .change name file => inferInstanceAs (Decidable (dir.NewVersion name file))
  | .resolve _ => inferInstanceAs (Decidable True)
  | .changed => inferInstanceAs (Decidable True)

def holds (name : String) (t : DirTask γ ω) : Nat :=
  match t with
  | .resolve t => if t.name = name ∧ t.holds = true then 1 else 0
  | _ => 0

def compiles (name : String) (t : DirTask γ ω) : Nat :=
  match t with
  | .resolve t => if t.name = name ∧ t.compiles = true then 1 else 0
  | _ => 0

def isCompiling (t : DirTask γ ω) : Bool :=
  match t with
  | .resolve t => t.compiles
  | _ => false

def Attached (t : DirTask γ ω) : Prop :=
  match t with
  | .resolve t => t.isDetached = false
  | _ => True

variable {env : CompileEnv γ ω} {cfg : DynamicConfig} {reg reg' : DynamicRegistry γ ω}
  {t t' : DirTask γ ω} {x : ResolveInput}

theorem Sound.append {dir : ModuleDir} (h : t.Sound env dir) (more : ModuleDir)
    : t.Sound env (dir ++ more) := by
  cases t with
  | resolve t => exact Resolve.Sound.append h
  | _ => trivial

theorem sound_act (hreg : reg.Sound env) (ht : t.Sound env reg.dir) (hnew : t.Renews reg.dir)
    (h : t.act env cfg reg x = some (reg', t'))
    : reg'.Sound env ∧ t'.Sound env reg'.dir ∧ ∃ more, reg'.dir = reg.dir ++ more := by
  cases t with
  | resolve t =>
    rcases Option.map_eq_some_iff.mp h with ⟨⟨reg₁, t₁⟩, hact, heq⟩
    cases heq
    rcases Resolve.sound_act hreg ht hact with ⟨hsound, ht', hdir⟩
    exact ⟨hsound, ht', [], by simp [hdir]⟩
  | change name file =>
    cases x with
    | run =>
      cases h
      refine ⟨⟨hreg.versions.change hnew, ?_⟩, trivial, [(name, file)], rfl⟩
      intro name' c hc
      exact (hreg.cached name' c hc).append
    | _ => cases h
  | changed => cases h

theorem holds_act (name : String) (hle : t.holds name ≤ if name ∈ reg.gates then 1 else 0)
    (h : t.act env cfg reg x = some (reg', t'))
    : t'.holds name + (if name ∈ reg.gates then 1 else 0)
      = t.holds name + if name ∈ reg'.gates then 1 else 0 := by
  cases t with
  | resolve t =>
    rcases Option.map_eq_some_iff.mp h with ⟨⟨reg₁, t₁⟩, hact, heq⟩
    cases heq
    rcases Resolve.gates_act hact with
      ⟨hname, ⟨hgates, hholds⟩ | ⟨hfree, hgates, hbefore, hafter⟩ | ⟨hgates, hbefore, hafter⟩⟩
    . simp only [holds, hname, hholds, hgates]
    . by_cases heq : t.name = name
      . subst heq
        simp [holds, hname, hbefore, hafter, hgates, hfree]
      . simp [holds, hname, heq, hgates, Ne.symm heq]
    . by_cases heq : t.name = name
      . subst heq
        simp only [holds, hbefore, and_true, if_true] at hle
        have hlocked : t.name ∈ reg.gates := by
          by_contra hfree
          simp [hfree] at hle
        simp [holds, hname, hbefore, hafter, hgates, hlocked]
      . simp [holds, hname, heq, hgates, Ne.symm heq]
  | change name file =>
    cases x with
    | run =>
      cases h
      rfl
    | _ => cases h
  | changed => cases h

theorem attached_act (h : t.Attached) (hdrop : x = .drop → t.isCompiling = false)
    (hact : t.act env cfg reg x = some (reg', t'))
    : t'.Attached := by
  cases t with
  | resolve t =>
    rcases Option.map_eq_some_iff.mp hact with ⟨⟨reg₁, t₁⟩, hact', heq⟩
    cases heq
    exact Resolve.attached_act hdrop hact'
  | change name file =>
    cases x with
    | run =>
      cases hact
      trivial
    | _ => cases hact
  | changed => cases hact

theorem compiles_le_holds (h : t.Attached) (name : String) : t.compiles name ≤ t.holds name := by
  cases t with
  | resolve t =>
    rcases t with ⟨m, begun, ended, state⟩
    cases state with
    | detached => cases h
    | _ => simp [compiles, holds, Resolve.compiles, Resolve.holds]
  | _ => exact Nat.le_refl 0

end DirTask

namespace DirTasks

variable {γ ω : Type} {env : CompileEnv γ ω} {cfg : DynamicConfig} {p q : DirTasks γ ω} {e : Event}

structure Sound (env : CompileEnv γ ω) (p : DirTasks γ ω) : Prop where
  shared : p.shared.Sound env
  tasks : ∀ (i : Nat) t, p.threads[i]? = some t → t.Sound env p.shared.dir

def Renews (p : DirTasks γ ω) (e : Event) : Prop :=
  match e with
  | .spawn _ => True
  | .step i _ => ∀ t ∈ p.threads[i]?, t.Renews p.shared.dir

instance (p : DirTasks γ ω) (e : Event) : Decidable (p.Renews e) :=
  match e with
  | .spawn _ => inferInstanceAs (Decidable True)
  | .step i _ => inferInstanceAs (Decidable (∀ t ∈ p.threads[i]?, t.Renews p.shared.dir))

/-- No request is cancelled while it compiles. -/
def Uncancelled (p : DirTasks γ ω) (e : Event) : Prop :=
  match e with
  | .step i .drop => ∀ t ∈ p.threads[i]?, t.isCompiling = false
  | _ => True

instance (p : DirTasks γ ω) (e : Event) : Decidable (p.Uncancelled e) :=
  match e with
  | .step i .drop => inferInstanceAs (Decidable (∀ t ∈ p.threads[i]?, t.isCompiling = false))
  | .step _ .run => inferInstanceAs (Decidable True)
  | .step _ (.crash _) => inferInstanceAs (Decidable True)
  | .spawn _ => inferInstanceAs (Decidable True)

theorem sound_start : Sound env (start γ ω) where
  shared := by
    constructor
    . intro i j name f g hi
      simp [start] at hi
    . intro name c hc
      cases hc
  tasks := by
    intro i t ht
    simp [start] at ht

theorem sound_step (h : p.Sound env) (hok : p.Renews e) (hstep : step env cfg p e = some q)
    : q.Sound env := by
  rcases Pool.step_cases _ _ hstep with ⟨c, rfl, rfl⟩ | ⟨i, x, t, s, t', rfl, ht, hact, rfl⟩
  . refine ⟨h.shared, ?_⟩
    apply Pool.forall_concat _ h.tasks
    cases c <;> trivial
  . rcases DirTask.sound_act h.shared (h.tasks i t ht) (hok t ht) hact with ⟨hshared, ht', more, hdir⟩
    refine ⟨hshared, ?_⟩
    apply Pool.forall_set ht'
    intro j u _ hu
    rw [hdir]
    exact (h.tasks j u hu).append more

def Exclusive (p : DirTasks γ ω) : Prop :=
  ∀ name, p.sum (DirTask.holds name) = if name ∈ p.shared.gates then 1 else 0

theorem exclusive_step (h : p.Exclusive) (hstep : step env cfg p e = some q) : q.Exclusive := by
  intro name
  rcases Pool.step_cases _ _ hstep with ⟨c, rfl, rfl⟩ | ⟨i, x, t, s, t', rfl, ht, hact, rfl⟩
  . rw [Pool.sum_spawn, h name]
    cases c <;> simp [DirTask.spawn, DirTask.holds, Resolve.holds]
  . have hle := Pool.le_sum (DirTask.holds name) p ht
    rw [h name] at hle
    have hset := Pool.sum_set (DirTask.holds name) p ht s t'
    have hgates := DirTask.holds_act name hle hact
    rw [h name] at hset
    dsimp only
    omega

def Attached (p : DirTasks γ ω) : Prop := ∀ (i : Nat) t, p.threads[i]? = some t → t.Attached

theorem attached_step (h : p.Attached) (hok : p.Uncancelled e) (hstep : step env cfg p e = some q)
    : q.Attached := by
  rcases Pool.step_cases _ _ hstep with ⟨c, rfl, rfl⟩ | ⟨i, x, t, s, t', rfl, ht, hact, rfl⟩
  . apply Pool.forall_concat _ h
    cases c <;> trivial
  . apply Pool.forall_set
    . apply DirTask.attached_act (h i t ht) _ hact
      rintro rfl
      exact hok t ht
    . intro j u _ hu
      exact h j u hu

def compiling (p : DirTasks γ ω) (name : String) : Nat := p.sum (DirTask.compiles name)

end DirTasks

theorem resolve_fresh_and_exclusive {γ ω : Type} (env : CompileEnv γ ω) (cfg : DynamicConfig)
    (es : List DirTasks.Event) {p : DirTasks γ ω}
    (hversions : Machine.Guarded (DirTasks.step env cfg) DirTasks.Renews (DirTasks.start γ ω) es)
    (hrun : Machine.run (DirTasks.step env cfg) (DirTasks.start γ ω) es = some p)
    : (∀ (i : Nat) t plugin, p.threads[i]? = some (.resolve t) → t.state = .returned (.ok plugin) →
        ∃ k f, t.begun ≤ k ∧ k ≤ t.ended ∧ p.shared.dir.fileAt k t.name = some f
          ∧ env.compileBytes f.bytes = .ok (plugin.module, plugin.hasDealloc))
      ∧ (Machine.Guarded (DirTasks.step env cfg) DirTasks.Uncancelled (DirTasks.start γ ω) es →
        ∀ name, p.compiling name ≤ 1) := by
  constructor
  . intro i t plugin hi hstate
    have hsound := Machine.inv_of_run (fun _ _ _ h hok hstep => DirTasks.sound_step h hok hstep)
      DirTasks.sound_start hversions hrun
    have ht : t.Sound env p.shared.dir := hsound.tasks i _ hi
    unfold Resolve.Sound at ht
    rw [hstate] at ht
    rcases ht plugin rfl with ⟨k, f, hbegun, hended, -, hf, hcompile⟩
    exact ⟨k, f, hbegun, hended, hf, hcompile⟩
  . intro hcancel name
    have hexclusive : p.Exclusive := by
      apply Machine.inv_of_run_all (fun _ _ _ h hstep => DirTasks.exclusive_step h hstep) _ hrun
      intro name
      rfl
    have hattached : p.Attached := by
      apply Machine.inv_of_run (fun _ _ _ h hok hstep => DirTasks.attached_step h hok hstep) _ hcancel hrun
      intro i t ht
      simp [DirTasks.start] at ht
    -- Whoever compiles holds the gate of the name, and the gate has one holder.
    calc p.compiling name
      _ ≤ p.sum (DirTask.holds name) := by
        apply Pool.sum_le_sum
        intro t ht
        rcases List.mem_iff_getElem?.mp ht with ⟨i, hi⟩
        exact DirTask.compiles_le_holds (hattached i t hi) name
      _ ≤ 1 := by
        rw [hexclusive name]
        split <;> omega

section replacement

def acceptingEnv : CompileEnv Unit Unit where
  compile _ := .ok denyingModule
  validateModule _ := .ok false
  instantiatePre _ := .ok ()
  path name := "/modules/" ++ name ++ ".wasm"
  readError := "not found"

def replacementRun : List DirTasks.Event :=
  [.spawn (.change "m" (some ⟨(1, 0, 3), [1]⟩)), .step 0 .run, .spawn (.resolve "m"), .spawn (.resolve "m"),
    .step 1 .run, .step 2 .run, .step 1 .run, .step 1 .run, .step 1 .run,
    .spawn (.change "m" (some ⟨(2, 0, 3), [2]⟩)), .step 3 .run, .step 1 .run, .step 1 .run, .step 1 .run,
    .step 2 .run, .step 1 .run]

theorem resolve_fresh_and_exclusive_replacement
    : ∃ p, Machine.run (DirTasks.step acceptingEnv {}) (DirTasks.start Unit Unit) replacementRun = some p
      ∧ (∃ t plugin, p.threads[2]? = some (.resolve t) ∧ t.state = .returned (.ok plugin)
        ∧ ∃ k f, t.begun ≤ k ∧ k ≤ t.ended ∧ p.shared.dir.fileAt k t.name = some f
          ∧ acceptingEnv.compileBytes f.bytes = .ok (plugin.module, plugin.hasDealloc))
      ∧ ∀ name, p.compiling name ≤ 1 := by
  refine ⟨_, rfl, ?_⟩
  have h := resolve_fresh_and_exclusive acceptingEnv {} replacementRun (by decide) rfl
  exact ⟨⟨_, _, rfl, rfl, h.1 2 _ _ rfl rfl⟩, h.2 (by decide)⟩

end replacement

end OpenRusty
