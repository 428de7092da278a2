import OpenRusty.Server.Admin.Plane
import OpenRusty.Server.Reload.Pinning

/-!
This module contains the dry run of a configuration (`check.rs`) and the start of the gateway (`main.rs`,
`state.rs`), and the proof that they agree: what passes the dry run starts and reloads, up to what the dry
run does not look at, and what it reports is what is served.
-/

namespace OpenRusty

namespace PluginRegistry

variable {γ ω : Type} {env : BuildEnv γ ω} {cfg : PluginsConfig}

theorem loadPlugin_ok_congr {name : String} (state state' : Nat)
    : (∃ plugin, loadPlugin env cfg name state = .ok plugin)
        ↔ ∃ plugin, loadPlugin env cfg name state' = .ok plugin := by
  have hmap : ∀ state, (∃ plugin, loadPlugin env cfg name state = .ok plugin)
      ↔ ∃ bytes, (env.read name).mapError ReloadError.io = .ok bytes
        ∧ ∃ module, (env.compile bytes).mapError (ReloadError.compile name) = .ok module
        ∧ ∃ hasDealloc, (env.validateModule module).mapError (ReloadError.abi name) = .ok hasDealloc
        ∧ ∃ pre, ((env.instantiatePre module).mapError fun e => ReloadError.abi name ("instantiate_pre: " ++ e))
          = .ok pre := by
    intro state
    simp only [loadPlugin, Except.bind_eq_ok]
    constructor
    . rintro ⟨plugin, bytes, hbytes, module, hmodule, hasDealloc, hvalid, pre, hpre, -⟩
      exact ⟨bytes, hbytes, module, hmodule, hasDealloc, hvalid, pre, hpre⟩
    . rintro ⟨bytes, hbytes, module, hmodule, hasDealloc, hvalid, pre, hpre⟩
      exact ⟨_, bytes, hbytes, module, hmodule, hasDealloc, hvalid, pre, hpre, rfl⟩
  rw [hmap, hmap]

def Loads (env : BuildEnv γ ω) (cfg : PluginsConfig) (names : List String) : Prop :=
  ∀ name ∈ names, ∃ plugin, loadPlugin env cfg name 0 = .ok plugin

theorem loadPlugins_ok_iff (prev : List (RegisteredPlugin γ ω)) (free : Nat) {names : List String}
    : (∃ out, loadPlugins env cfg prev free names = .ok out) ↔ Loads env cfg names := by
  induction names generalizing free with
  | nil => simp [loadPlugins, Loads]
  | cons name names ih =>
    unfold Loads at ih ⊢
    rw [List.forall_mem_cons, ← ih, loadPlugin_ok_congr 0 ((stateOf prev name).getD free)]
    simp only [loadPlugins, Except.bind_eq_ok]
    constructor
    . rintro ⟨out, plugin, hplugin, rest, hrest, -⟩
      exact ⟨⟨plugin, hplugin⟩, rest, hrest⟩
    . rintro ⟨⟨plugin, hplugin⟩, rest, hrest⟩
      exact ⟨_, plugin, hplugin, rest, hrest, rfl⟩

theorem build_ok_iff (prev : PluginSnapshot γ ω) (free : Nat)
    : (∃ out, build env cfg prev free = .ok out)
        ↔ ∃ files, discover env = .ok files ∧ Loads env cfg (orderPlugins files cfg.order) := by
  simp only [build, Except.bind_eq_ok]
  constructor
  . rintro ⟨out, files, hfiles, plugins, hplugins, -⟩
    exact ⟨files, hfiles, (loadPlugins_ok_iff prev.plugins free).mp ⟨plugins, hplugins⟩⟩
  . rintro ⟨files, hfiles, hloads⟩
    obtain ⟨plugins, hplugins⟩ := (loadPlugins_ok_iff prev.plugins free).mpr hloads
    exact ⟨_, files, hfiles, plugins, hplugins, rfl⟩

theorem names_of_build {prev snap : PluginSnapshot γ ω} {free free' : Nat}
    (h : build env cfg prev free = .ok (snap, free'))
    : ∃ files, discover env = .ok files ∧ snap.plugins.map (fun p => p.name) = orderPlugins files cfg.order := by
  simp only [build, Except.bind_eq_ok] at h
  obtain ⟨files, hfiles, plugins, hplugins, h⟩ := h
  cases h
  exact ⟨files, hfiles, names_of_loadPlugins hplugins⟩

def filesOf (env : BuildEnv γ ω) : List String := (discover env).toOption.getD []

theorem filesOf_eq_nil (h : ∀ name names, discover env ≠ .ok (name :: names)) : filesOf env = [] := by
  unfold filesOf
  cases hdiscover : discover env with
  | error e => rfl
  | ok files =>
    cases files with
    | nil => rfl
    | cons name names => exact absurd hdiscover (h name names)

theorem filesOf_eq {files : List String} (h : discover env = .ok files) : filesOf env = files := by
  unfold filesOf
  rw [h]
  rfl

@[simp]
theorem orderPlugins_nil (order : List String) : orderPlugins [] order = [] := by
  simp [orderPlugins]

theorem initial_ok_iff
    : (∃ reg, initial env cfg = .ok reg) ↔ Loads env cfg (orderPlugins (filesOf env) cfg.order) := by
  unfold initial
  split
  . next name names hfiles =>
    rw [filesOf_eq hfiles, ← loadPlugins_ok_iff [] 0]
    simp only [Except.bind_eq_ok]
    constructor
    . rintro ⟨reg, plugins, hplugins, -⟩
      exact ⟨plugins, hplugins⟩
    . rintro ⟨plugins, hplugins⟩
      exact ⟨_, plugins, hplugins, rfl⟩
  . next hempty =>
    rw [filesOf_eq_nil hempty, orderPlugins_nil]
    simp [Loads]

theorem names_of_initial {reg : PluginRegistry γ ω} (h : initial env cfg = .ok reg)
    : reg.swap.current.plugins.map (fun p => p.name) = orderPlugins (filesOf env) cfg.order := by
  unfold initial at h
  split at h
  . next name names hfiles =>
    simp only [Except.bind_eq_ok] at h
    obtain ⟨plugins, hplugins, h⟩ := h
    cases h
    rw [filesOf_eq hfiles]
    exact names_of_loadPlugins hplugins
  . next hempty =>
    cases h
    rw [filesOf_eq_nil hempty, orderPlugins_nil]
    rfl

end PluginRegistry

namespace Check

variable {γ ω : Type}

structure Site (γ ω : Type) where
  isFile : Bool
  load : LoadEnv
  openLog : Option String → Except String Unit
  buildTls : UpstreamTlsConfig → Except String Unit
  engine : PluginRegistry.EngineEnv
  pluginDir : String → PluginRegistry.BuildEnv γ ω

structure Summary where
  configPath : String
  listeners : List String
  routeCount : Nat
  upstreamNames : List String
  pluginNames : List String
  pluginDir : String
  generation : Nat
  deriving DecidableEq, Repr

def configError (path : String) (e : ConfigError) : String :=
  match e with
  | .io e => "cannot read config file " ++ path ++ ": " ++ e
  | .parse e => "config file " ++ path ++ " parse error: " ++ e
  | .invalid m => "config file " ++ path ++ " invalid: " ++ m

def run (site : Site γ ω) (path : String) : Except String Summary := do
  let cfg ← (loadConfig site.load).mapError (configError path)
  (cfg.validate site.load.toConfigEnv).mapError fun e => "config file " ++ path ++ " invalid: " ++ e.toString
  let registry ← (PluginRegistry.bootstrap site.engine (site.pluginDir cfg.plugins.dir) cfg.plugins).mapError fun e =>
    "plugin load failed from " ++ cfg.plugins.dir ++ ": " ++ e.toString
  let snap := registry.swap.current
  return {
    configPath := path
    listeners := (effectiveListeners cfg.server).map fun l => l.role.asStr ++ "@" ++ l.listen.toString
    routeCount := cfg.routes.length
    upstreamNames := cfg.upstreams.map UpstreamConfig.name
    pluginNames := snap.plugins.map fun p => p.name
    pluginDir := cfg.plugins.dir
    generation := snap.generation
  }

inductive BootError where
  | notFound
  | invalidConfig (e : ConfigError)
  | logFile (detail : String)
  | bootstrap (e : PluginRegistry.ReloadError)
  deriving DecidableEq, Repr

variable (codec : Codec)

def fromConfig (site : Site γ ω) (cfg : GatewayConfig) : Except PluginRegistry.ReloadError (ControlPlane γ ω) := do
  (buildTlsPlans site.buildTls cfg.toConfig).mapError .io
  let registry ← PluginRegistry.bootstrap site.engine (site.pluginDir cfg.plugins.dir) cfg.plugins
  return .fromConfig codec cfg registry

def boot (site : Site γ ω) : Except BootError (ControlPlane γ ω) := do
  Except.ensure site.isFile .notFound
  let cfg ← (loadConfig site.load).mapError .invalidConfig
  (site.openLog cfg.server.logFile).mapError .logFile
  (fromConfig codec site cfg).mapError .bootstrap

structure Passes (site : Site γ ω) (cfg : GatewayConfig) (registry : PluginRegistry γ ω) : Prop where
  loaded : loadConfig site.load = .ok cfg
  plugins : PluginRegistry.bootstrap site.engine (site.pluginDir cfg.plugins.dir) cfg.plugins = .ok registry

theorem Passes.loaded_eq {site : Site γ ω} {cfg cfg' : GatewayConfig} {registry : PluginRegistry γ ω}
    (h : Passes site cfg registry) (hcfg : loadConfig site.load = .ok cfg')
    : cfg' = cfg := by
  rw [h.loaded] at hcfg
  exact (Except.ok.inj hcfg).symm

def summarize (path : String) (cfg : GatewayConfig) (registry : PluginRegistry γ ω) : Summary where
  configPath := path
  listeners := (effectiveListeners cfg.server).map fun l => l.role.asStr ++ "@" ++ l.listen.toString
  routeCount := cfg.routes.length
  upstreamNames := cfg.upstreams.map UpstreamConfig.name
  pluginNames := registry.swap.current.plugins.map fun p => p.name
  pluginDir := cfg.plugins.dir
  generation := registry.swap.current.generation

theorem validate_of_loadConfig {env : LoadEnv} {cfg : GatewayConfig} (h : loadConfig env = .ok cfg)
    : cfg.validate env.toConfigEnv = .ok () := by
  simp only [loadConfig, Except.bind_eq_ok, Except.mapError_eq_ok] at h
  obtain ⟨raw, -, parsed, -, u, hvalid, h⟩ := h
  cases h
  exact hvalid

theorem run_eq_ok {site : Site γ ω} {path : String} {summary : Summary}
    : run site path = .ok summary
        ↔ ∃ cfg registry, Passes site cfg registry ∧ summary = summarize path cfg registry := by
  simp only [run, Except.bind_eq_ok, Except.mapError_eq_ok]
  constructor
  . rintro ⟨cfg, hcfg, u, -, registry, hregistry, h⟩
    cases h
    exact ⟨cfg, registry, ⟨hcfg, hregistry⟩, rfl⟩
  . rintro ⟨cfg, registry, hpasses, rfl⟩
    exact ⟨cfg, hpasses.loaded, (), validate_of_loadConfig hpasses.loaded, registry, hpasses.plugins, rfl⟩

theorem boot_eq_ok {site : Site γ ω} {s : ControlPlane γ ω}
    : boot codec site = .ok s
      ↔ site.isFile = true ∧ ∃ cfg registry, Passes site cfg registry ∧ site.openLog cfg.server.logFile = .ok ()
        ∧ buildTlsPlans site.buildTls cfg.toConfig = .ok () ∧ s = .fromConfig codec cfg registry := by
  simp only [boot, fromConfig, Except.bind_eq_ok, Except.mapError_eq_ok]
  constructor
  . rintro ⟨u, hfile, cfg, hcfg, v, hlog, w, htls, registry, hregistry, h⟩
    cases h
    exact ⟨Except.ensure_eq_ok.mp hfile, cfg, registry, ⟨hcfg, hregistry⟩, hlog, htls, rfl⟩
  . rintro ⟨hfile, cfg, registry, hpasses, hlog, htls, rfl⟩
    exact ⟨(), Except.ensure_eq_ok.mpr hfile, cfg, hpasses.loaded, (), hlog, (), htls, registry, hpasses.plugins, rfl⟩

/-- A reload finds the engine and the linker of the gateway that runs already. -/
def Site.running (site : Site γ ω) : Site γ ω :=
  { site with engine := { newEngine := fun _ => .ok (), buildLinker := .ok () } }

def Site.BuildsEngine (site : Site γ ω) : Prop :=
  ∃ cfg, loadConfig site.load = .ok cfg ∧ site.engine.newEngine cfg.plugins = .ok () ∧ site.engine.buildLinker = .ok ()

theorem passes_iff {site : Site γ ω} {cfg : GatewayConfig} {registry : PluginRegistry γ ω}
    : Passes site cfg registry ↔ Passes site.running cfg registry ∧ site.BuildsEngine := by
  constructor
  . intro h
    obtain ⟨⟨hengine, hlinker⟩, hinitial⟩ := PluginRegistry.bootstrap_eq_ok.mp h.plugins
    refine ⟨⟨h.loaded, ?_⟩, cfg, h.loaded, hengine, hlinker⟩
    exact PluginRegistry.bootstrap_eq_ok.mpr ⟨⟨rfl, rfl⟩, hinitial⟩
  . rintro ⟨h, cfg', hcfg', hengine, hlinker⟩
    cases h.loaded_eq hcfg'
    refine ⟨h.loaded, ?_⟩
    exact PluginRegistry.bootstrap_eq_ok.mpr ⟨⟨hengine, hlinker⟩, (PluginRegistry.bootstrap_eq_ok.mp h.plugins).2⟩

theorem run_eq_ok_running {site : Site γ ω} {path : String} {summary : Summary}
    : run site path = .ok summary ↔ run site.running path = .ok summary ∧ site.BuildsEngine := by
  rw [run_eq_ok, run_eq_ok]
  constructor
  . rintro ⟨cfg, registry, hpasses, hsummary⟩
    obtain ⟨hrunning, hengine⟩ := passes_iff.mp hpasses
    exact ⟨⟨cfg, registry, hrunning, hsummary⟩, hengine⟩
  . rintro ⟨⟨cfg, registry, hrunning, hsummary⟩, hengine⟩
    exact ⟨cfg, registry, passes_iff.mpr ⟨hrunning, hengine⟩, hsummary⟩

structure Summary.Describes (summary : Summary) (s : ControlPlane γ ω) : Prop where
  listeners : summary.listeners
    = (App.mounts s.staticConfig.dynamic.isSome (effectiveListeners s.staticConfig.server)).map fun m =>
      m.listener.role.asStr ++ "@" ++ m.listener.listen.toString
  routes : summary.routeCount = s.runtime.current.runtime.routes.length
  distinct : summary.upstreamNames.Nodup
  upstreams : ∀ name, name ∈ summary.upstreamNames ↔ name ∈ s.runtime.current.runtime.upstreams
  plugins : summary.pluginNames = s.registry.swap.current.plugins.map fun p => p.name
  generation : summary.generation = s.generation ∧ summary.generation = s.runtime.current.runtime.generation

theorem mem_upstreams_iff {cfg : Config} {generation : Nat} {name : String}
    : name ∈ (RuntimeSnapshot.fromConfig cfg generation).upstreams ↔ name ∈ cfg.upstreams.map UpstreamConfig.name := by
  rw [RuntimeSnapshot.fromConfig, ← AList.lookup_isSome, AList.lookup_foldl_insert, AList.lookup_empty, Option.or_none,
    Option.isSome_map, List.find?_isSome, List.mem_map]
  simp

theorem describes_summarize {site : Site γ ω} {cfg : GatewayConfig} {registry : PluginRegistry γ ω} (path : String)
    (h : Passes site cfg registry)
    : (summarize path cfg registry).Describes (.fromConfig codec cfg registry) where
  listeners := by
    simp [summarize, ControlPlane.fromConfig, App.mounts]
  routes := rfl
  distinct := (GatewayConfig.validate_eq_ok.mp (validate_of_loadConfig h.loaded)).2.distinct
  upstreams _ := mem_upstreams_iff.symm
  plugins := rfl
  generation := ⟨rfl, rfl⟩

theorem buildTlsPlans_resolve (build : UpstreamTlsConfig → Except String Unit)
    (lookupHost : String → Option (List SocketAddr)) (cfg : GatewayConfig)
    : buildTlsPlans build (cfg.resolve lookupHost).toConfig = buildTlsPlans build cfg.toConfig := by
  have hframe : ∀ uc : UpstreamConfig,
      (resolveUpstream lookupHost uc).tls = uc.tls ∧ (resolveUpstream lookupHost uc).name = uc.name := by
    intro uc
    unfold resolveUpstream mergeResolved
    dsimp only
    split
    . exact ⟨rfl, rfl⟩
    . split <;> exact ⟨rfl, rfl⟩
  unfold buildTlsPlans GatewayConfig.resolve resolveConfig
  dsimp only
  generalize 0 = i
  induction cfg.upstreams generalizing i with
  | nil => rfl
  | cons uc upstreams ih =>
    rw [List.map_cons, Except.forEach, Except.forEach, ih, (hframe uc).1, (hframe uc).2]

def Site.Reloads (site : Site γ ω) (names : List String) : Prop :=
  ∃ cfg files, loadConfig site.load = .ok cfg ∧ buildTlsPlans site.buildTls cfg.toConfig = .ok ()
    ∧ PluginRegistry.discover (site.pluginDir cfg.plugins.dir) = .ok files
    ∧ PluginRegistry.Loads (site.pluginDir cfg.plugins.dir) cfg.plugins
      (PluginRegistry.orderPlugins files cfg.plugins.order)
    ∧ names = PluginRegistry.orderPlugins files cfg.plugins.order

def Site.Answers (site : Site γ ω) (x : ControlPlane.Input γ ω) : Prop :=
  match x with
  | .loaded env => env = site.load
  | .tls build => build = site.buildTls
  | .plugins (.built env) => ∀ cfg, loadConfig site.load = .ok cfg → env = site.pluginDir cfg.plugins.dir
  | .joinError _ | .plugins (.joinError _) => False
  | _ => True

def Site.Admits (site : Site γ ω) (e : Pool.Event ControlPlane.Arrival (ControlPlane.Input γ ω)) : Prop :=
  match e with
  | .spawn (.applyConfig _) => False
  | .spawn _ => True
  | .step _ x => site.Answers x

section call

open PluginRegistry

def CallFollows (env : BuildEnv γ ω) (cfg : PluginsConfig) (swap : ArcSwap (PluginSnapshot γ ω)) (c : ReloadCall γ ω)
    : Prop :=
  match c with
  | .load cfg' _ => cfg' = cfg
  | .build cfg' _ version _ => cfg' = cfg ∧ version = swap.version
  | .publish cfg' _ version snap => cfg' = cfg ∧ version = swap.version
    ∧ ∃ files, discover env = .ok files ∧ PluginRegistry.Loads env cfg (orderPlugins files cfg.order)
      ∧ snap.plugins.map (fun p => p.name) = orderPlugins files cfg.order
  | .returned (.ok _) => ∃ files, discover env = .ok files ∧ PluginRegistry.Loads env cfg (orderPlugins files cfg.order)
      ∧ swap.current.plugins.map (fun p => p.name) = orderPlugins files cfg.order
  | .returned (.error _) =>
    ¬∃ files, discover env = .ok files ∧ PluginRegistry.Loads env cfg (orderPlugins files cfg.order)
  | .dropped => True

theorem callFollows_of_act {env : BuildEnv γ ω} {cfg : PluginsConfig} {reg reg' : PluginRegistry γ ω}
    {c c' : ReloadCall γ ω} {x : ReloadInput γ ω} (h : c.act reg x = some (reg', c'))
    (hc : CallFollows env cfg reg.swap c) (henv : ∀ env', x = .built env' → env' = env)
    (hjoin : ∀ detail, x ≠ .joinError detail)
    : CallFollows env cfg reg'.swap c' := by
  unfold ReloadCall.act at h
  split at h
  . cases h
    exact ⟨hc, rfl⟩
  . next cfg' attempts version current env' =>
    cases henv env' rfl
    obtain ⟨rfl, hversion⟩ := hc
    split at h
    . next snap free hbuild =>
      cases h
      obtain ⟨files, hfiles, hnames⟩ := names_of_build hbuild
      obtain ⟨files', hfiles', hloads⟩ := (build_ok_iff current reg.states.length).mp ⟨_, hbuild⟩
      rw [hfiles] at hfiles'
      cases hfiles'
      exact ⟨rfl, hversion, files, hfiles, hloads, hnames⟩
    . next e hbuild =>
      cases h
      intro hloads
      obtain ⟨out, hout⟩ := (build_ok_iff current reg.states.length).mpr hloads
      rw [hbuild] at hout
      cases hout
  . next detail => exact absurd rfl (hjoin detail)
  . cases h
    trivial
  . next cfg' attempts version snap =>
    obtain ⟨rfl, hversion, files, hfiles, hloads, hnames⟩ := hc
    rw [ArcSwap.compareAndSwap, if_pos hversion] at h
    cases h
    exact ⟨files, hfiles, hloads, hnames⟩
  . cases h

end call

section reload

open ControlPlane

variable {codec} {site : Site γ ω}

def Follows (site : Site γ ω) (swap : ArcSwap (PluginSnapshot γ ω)) (r : Reload γ ω) : Prop :=
  match r with
  | .start cfg => cfg = none
  | .load => True
  | .resolve file cfg => file = true ∧ loadConfig site.load = .ok cfg
  | .tls file loaded resolved => file = true ∧ loadConfig site.load = .ok loaded ∧ Resolves loaded resolved
  | .plugins file loaded _ call => file = true ∧ loadConfig site.load = .ok loaded
    ∧ buildTlsPlans site.buildTls loaded.toConfig = .ok ()
    ∧ CallFollows (site.pluginDir loaded.plugins.dir) loaded.plugins swap call
  | .publish job _ => job.file = true ∧ site.Reloads (swap.current.plugins.map fun p => p.name)
  | .done (.ok report) => ∃ names, report.plugins = some names ∧ site.Reloads names
  | .done (.error (.failed _)) => ∀ names, ¬site.Reloads names
  | .done (.error .inFlight) => True
  | .dropped => True

theorem follows_of_not_holds {swap swap' : ArcSwap (PluginSnapshot γ ω)} {r : Reload γ ω} (hr : r.holds = false)
    (h : Follows site swap r)
    : Follows site swap' r := by
  cases r with
  | start cfg => exact h
  | done result =>
    rcases result with (_ | _) | _ <;> exact h
  | dropped => trivial
  | _ => cases hr

theorem not_reloads_of_load {e : ConfigError} (h : loadConfig site.load = .error e) (names : List String)
    : ¬site.Reloads names := by
  rintro ⟨cfg, files, hcfg, -⟩
  rw [h] at hcfg
  cases hcfg

variable {s s' : ControlPlane γ ω} {r r' : Reload γ ω}

theorem follows_of_actPlugins (s : ControlPlane γ ω) {loaded : GatewayConfig} (resolved : GatewayConfig)
    {registry : PluginRegistry γ ω} {call : PluginRegistry.ReloadCall γ ω} (hcfg : loadConfig site.load = .ok loaded)
    (htls : buildTlsPlans site.buildTls loaded.toConfig = .ok ())
    (hcall : CallFollows (site.pluginDir loaded.plugins.dir) loaded.plugins registry.swap call)
    : Follows site (Reload.actPlugins s true loaded resolved registry call).1.registry.swap
        (Reload.actPlugins s true loaded resolved registry call).2 := by
  unfold Reload.actPlugins
  split
  . obtain ⟨files, hfiles, hloads, hnames⟩ := hcall
    exact ⟨rfl, loaded, files, hcfg, htls, hfiles, hloads, hnames⟩
  . rintro names ⟨cfg, files, hcfg', -, hfiles, hloads, -⟩
    rw [hcfg] at hcfg'
    cases hcfg'
    exact hcall ⟨files, hfiles, hloads⟩
  . trivial
  . exact ⟨rfl, hcfg, htls, hcall⟩

theorem follows_of_actPublish (codec : Codec) {job : Job} {next : PublishStep}
    (h : Follows site s.registry.swap (.publish job next))
    : Follows site (Reload.actPublish codec s job next).1.registry.swap (Reload.actPublish codec s job next).2 := by
  obtain ⟨hfile, hreloads⟩ := h
  cases next with
  | register rest =>
    cases rest with
    | nil => exact ⟨hfile, hreloads⟩
    | cons uc rest => exact ⟨hfile, hreloads⟩
  | dynamic =>
    refine ⟨hfile, ?_⟩
    rw [Reload.actPublish, (s.applyDynamic_frame job.resolved).1]
    exact hreloads
  | loadRoutes => exact ⟨hfile, hreloads⟩
  | storeRoutes routes => exact ⟨hfile, hreloads⟩
  | token => exact ⟨hfile, hreloads⟩
  | report =>
    refine ⟨_, ?_, hreloads⟩
    rw [hfile]
    rfl

theorem follows_of_act {x : ControlPlane.Input γ ω} (hact : r.act codec s x = some (s', r')) (hx : site.Answers x)
    (h : Follows site s.registry.swap r)
    : Follows site s'.registry.swap r' := by
  unfold Reload.act at hact
  split at hact
  . next cfg =>
    cases h
    split at hact
    . cases hact
      trivial
    . cases hact
      trivial
  . next env =>
    cases hx
    split at hact
    . next cfg hcfg =>
      cases hact
      exact ⟨rfl, hcfg⟩
    . next e he =>
      cases hact
      exact not_reloads_of_load he
  . exact hx.elim
  . cases hact
    trivial
  . next lookupHost =>
    cases hact
    exact ⟨h.1, h.2, lookupHost, rfl⟩
  . cases hact
    trivial
  . next file loaded resolved build =>
    cases hx
    obtain ⟨hfile, hcfg, lookupHost, rfl⟩ := h
    rw [buildTlsPlans_resolve] at hact
    split at hact
    . next htls =>
      cases hact
      exact ⟨hfile, hcfg, htls, rfl⟩
    . next detail htls =>
      cases hact
      rintro names ⟨cfg, files, hcfg', htls', -⟩
      rw [hcfg] at hcfg'
      cases hcfg'
      rw [htls] at htls'
      cases htls'
  . next file loaded resolved call y =>
    obtain ⟨rfl, hcfg, htls, hcall⟩ := h
    obtain ⟨⟨registry, call'⟩, hcallAct, heq⟩ := Option.map_eq_some_iff.mp hact
    have hcall' : CallFollows (site.pluginDir loaded.plugins.dir) loaded.plugins registry.swap call' := by
      apply callFollows_of_act hcallAct hcall
      . rintro env rfl
        exact hx loaded hcfg
      . rintro detail rfl
        exact hx
    have hfollows := follows_of_actPlugins s resolved hcfg htls hcall'
    dsimp only at heq
    rw [heq] at hfollows
    exact hfollows
  . next job next =>
    have hfollows := follows_of_actPublish codec h
    rw [Option.some.inj hact] at hfollows
    exact hfollows
  . cases hact

def TaskFollows (site : Site γ ω) (swap : ArcSwap (PluginSnapshot γ ω)) (t : ControlPlane.Task γ ω) : Prop :=
  match t with
  | .reload r => Follows site swap r
  | _ => True

structure Inv (site : Site γ ω) (p : Tasks γ ω) : Prop where
  exclusive : Exclusive p
  follows : ∀ (i : Nat) t, p.threads[i]? = some t → TaskFollows site p.shared.registry.swap t

theorem taskFollows_of_act {t t' : ControlPlane.Task γ ω} {x : ControlPlane.Input γ ω}
    (hact : t.act codec s x = some (s', t'))
    (hx : site.Answers x) (h : TaskFollows site s.registry.swap t)
    : TaskFollows site s'.registry.swap t' := by
  cases t with
  | reload r =>
    obtain ⟨y, hy, heq⟩ := Option.map_eq_some_iff.mp hact
    cases heq
    exact follows_of_act hy hx h
  | apply a =>
    obtain ⟨y, -, heq⟩ := Option.map_eq_some_iff.mp hact
    cases heq
    trivial
  | request q =>
    obtain ⟨y, -, heq⟩ := Option.map_eq_some_iff.mp hact
    cases heq
    trivial

theorem Inv.step {p q : Tasks γ ω} {e : Pool.Event ControlPlane.Arrival (ControlPlane.Input γ ω)}
    (h : Inv site p) (he : site.Admits e)
    (hstep : ControlPlane.step codec p e = some q)
    : Inv site q := by
  refine ⟨h.exclusive.step hstep, ?_⟩
  obtain ⟨o, rfl, rfl⟩ | ⟨i, x, t, s', t', rfl, hi, hact, rfl⟩ := Pool.step_cases _ _ hstep
  . apply Pool.forall_concat _ h.follows
    cases o with
    | reload => rfl
    | applyConfig cfg => exact he.elim
    | handOver pair => trivial
    | request => trivial
  . apply Pool.forall_set (taskFollows_of_act hact he (h.follows i t hi))
    intro j u hne hj
    have hu := h.follows j u hj
    -- Only the task that is past the gate changes the plugins.
    have hswap : s'.registry.swap = p.shared.registry.swap ∨ t.holds = true := by
      cases ControlPlane.Task.effect_of_act hact with
      | quiet hswap => exact .inl hswap
      | publish snap hswap hfollows hruntime hholds => exact .inr hholds
      | store pub hswap => exact .inl hswap
      | pinPlugins hs => exact .inl (by rw [hs])
      | pinRuntime generation hs => exact .inl (by rw [hs])
    cases hswap with
    | inl hsame => rwa [hsame]
    | inr ht =>
      cases u with
      | reload r =>
        apply follows_of_not_holds _ hu
        by_contra hr
        exact hne (h.exclusive.eq_of_holds hi hj ht (by simpa [ControlPlane.Task.holds] using hr))
      | apply a => trivial
      | request q => trivial

theorem Inv.boot (cfg : GatewayConfig) (registry : PluginRegistry γ ω)
    : Inv site (ControlPlane.boot codec cfg registry) where
  exclusive := { gate := rfl, current := by simp [ControlPlane.boot] }
  follows := by simp [ControlPlane.boot]

end reload

variable {site : Site γ ω} {path : String}

theorem reloads_iff (path : String)
    : (∃ names, site.Reloads names)
        ↔ (∃ summary, run site.running path = .ok summary) ∧ ∃ cfg, loadConfig site.load = .ok cfg
          ∧ buildTlsPlans site.buildTls cfg.toConfig = .ok ()
          ∧ ∃ entries, (site.pluginDir cfg.plugins.dir).entries = .ok entries := by
  constructor
  . rintro ⟨names, cfg, files, hcfg, htls, hfiles, hloads, -⟩
    rw [← PluginRegistry.filesOf_eq hfiles] at hloads
    obtain ⟨registry, hinitial⟩ := PluginRegistry.initial_ok_iff.mpr hloads
    have hpasses : Passes site.running cfg registry := by
      refine ⟨hcfg, ?_⟩
      exact PluginRegistry.bootstrap_eq_ok.mpr ⟨⟨rfl, rfl⟩, hinitial⟩
    refine ⟨⟨_, run_eq_ok.mpr ⟨cfg, registry, hpasses, rfl⟩⟩, cfg, hcfg, htls, ?_⟩
    unfold PluginRegistry.discover at hfiles
    split at hfiles
    . cases hfiles
    . next entries hentries => exact ⟨entries, hentries⟩
  . rintro ⟨⟨summary, hsummary⟩, cfg, hcfg, htls, entries, hentries⟩
    obtain ⟨cfg', registry, hpasses, -⟩ := run_eq_ok.mp hsummary
    cases hpasses.loaded_eq hcfg
    have hfiles : ∃ files, PluginRegistry.discover (site.pluginDir cfg.plugins.dir) = .ok files := by
      rw [PluginRegistry.discover, hentries]
      exact ⟨_, rfl⟩
    obtain ⟨files, hfiles⟩ := hfiles
    have hinitial : PluginRegistry.initial (site.pluginDir cfg.plugins.dir) cfg.plugins = .ok registry :=
      (PluginRegistry.bootstrap_eq_ok.mp hpasses.plugins).2
    have hloads := PluginRegistry.initial_ok_iff.mp ⟨registry, hinitial⟩
    rw [PluginRegistry.filesOf_eq hfiles] at hloads
    exact ⟨_, cfg, files, hcfg, htls, hfiles, hloads, rfl⟩

theorem names_of_reloads {names : List String} {summary : Summary} (h : site.Reloads names)
    (hsummary : run site.running path = .ok summary)
    : names = summary.pluginNames := by
  obtain ⟨cfg, files, hcfg, -, hfiles, -, rfl⟩ := h
  obtain ⟨cfg', registry, hpasses, rfl⟩ := run_eq_ok.mp hsummary
  cases hpasses.loaded_eq hcfg
  have hinitial : PluginRegistry.initial (site.pluginDir cfg.plugins.dir) cfg.plugins = .ok registry :=
    (PluginRegistry.bootstrap_eq_ok.mp hpasses.plugins).2
  rw [summarize, PluginRegistry.names_of_initial hinitial, PluginRegistry.filesOf_eq hfiles]

def pooledEngine : PluginRegistry.EngineEnv where
  newEngine cfg := if cfg.instancePoolSize ≤ 100000 then .ok () else .error "failed to create memory pool mapping"
  buildLinker := .ok ()

/-- The plugin directory is missing: the gateway starts without plugins, and cannot reload. -/
def withoutDir : Site Unit Unit where
  isFile := true
  load := ControlPlane.rotatedFile
  openLog _ := .ok ()
  buildTls _ := .ok ()
  engine := pooledEngine
  pluginDir _ := ControlPlane.unreadableDir

/-- The pool that the file asks for cannot be allocated: the gateway does not start, and can reload. -/
def oversizedPool : Site Unit Unit where
  isFile := true
  load := {
    ControlPlane.rotatedFile with
    parse := fun _ => .ok { ControlPlane.bootConfig with plugins := { instancePoolSize := 4294967295 } }
  }
  openLog _ := .ok ()
  buildTls _ := .ok ()
  engine := pooledEngine
  pluginDir _ := ControlPlane.emptyDir

def fileReload (site : Site Unit Unit) : List (Pool.Event ControlPlane.Arrival (ControlPlane.Input Unit Unit)) :=
  [.spawn .reload, .step 0 .run, .step 0 (.loaded site.load), .step 0 (.lookup fun _ => none),
    .step 0 (.tls site.buildTls), .step 0 (.plugins .run), .step 0 (.plugins (.built (site.pluginDir ""))),
    .step 0 (.plugins .run)] ++ List.replicate 6 (.step 0 .run)

def reloaded (es : List (Pool.Event ControlPlane.Arrival (ControlPlane.Input Unit Unit)))
    : Option (ControlPlane.Tasks Unit Unit) :=
  Machine.run (ControlPlane.step ControlPlane.plainCodec)
    (ControlPlane.boot ControlPlane.plainCodec ControlPlane.bootConfig ControlPlane.noPlugins) es

end Check

end OpenRusty
