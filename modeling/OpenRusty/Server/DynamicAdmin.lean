import OpenRusty.Core.Text
import OpenRusty.Lib.Machine
import OpenRusty.Server.RouteCallsLemmas
import OpenRusty.Wasm.Resolve

/-!
This module contains the registration of a dynamic module (`dynamic_admin.rs`): the checks, the store of
the artifact and the binding of a route behind it. Between two steps of a registration others may change
the artifacts and the table. A registration that both stores and binds does not take the artifact back
when the binding is refused.
-/

namespace OpenRusty

structure DynamicAdmin where
  /-- Whether there is a registry -/
  enabled : Bool
  validate : Bytes → Except String Unit
  /-- Whether the file system takes the artifact -/
  store : Except String Unit
  debug : String → String

structure ModuleStore where
  artifacts : String → Option Bytes
  routes : RouteTable

structure PutRequest where
  name : String
  method : Option String := none
  path : Option String := none
  /-- A body that cannot be read is `none`. -/
  body : Option Bytes
  deriving DecidableEq, Repr

inductive PutResponse where
  | text (status : Nat) (body : String)
  | stored (module : String) (bytes : Nat)
  | bound (module method path : String)
  deriving DecidableEq, Repr

def PutResponse.status (response : PutResponse) : Nat :=
  match response with
  | .text status _ => status
  | _ => 200

inductive PutProgress where
  | received
  | binding (method path : String) (progress : RouteProgress)
  | responded (response : PutResponse)
  deriving DecidableEq

structure PutRun where
  shared : ModuleStore
  progress : PutProgress

def maxModuleBytes : Nat := 64 * 1024 * 1024

namespace PutRequest

variable (admin : DynamicAdmin) (r : PutRequest)

def bindOnly (method path : String) (s : ModuleStore) : PutProgress :=
  if (s.artifacts r.name).isNone then
    .responded (.text 404 "404 dynamic module not found\n")
  else
    .binding method path (.loading 0)

def storeModule (body : Bytes) (s : ModuleStore) : ModuleStore :=
  { s with artifacts := Function.update s.artifacts r.name (some body) }

def receive (s : ModuleStore) : ModuleStore × PutProgress :=
  if !admin.enabled then
    (s, .responded (.text 404 "404 not found\n"))
  else if !validName r.name then
    (s, .responded (.text 400 "400 invalid dynamic module name\n"))
  else if r.method.isSome != r.path.isSome then
    (s, .responded (.text 400 "400 bind needs both 'method' and 'path' query params\n"))
  else
    match r.body.filter fun body => decide (body.length ≤ maxModuleBytes) with
    | none => (s, .responded (.text 413 "413 payload too large\n"))
    | some [] =>
      match r.method, r.path with
      | some method, some path => (s, r.bindOnly method path s)
      | _, _ =>
        (s, .responded (.text 400
          "400 empty body: send the module bytes, or bind an existing module with 'method' and 'path'\n"))
    | some body =>
      match admin.validate body with
      | .error detail => (s, .responded (.text 400 ("400 " ++ detail ++ "\n")))
      | .ok () =>
        match admin.store with
        | .error detail => (s, .responded (.text 500 ("500 " ++ detail ++ "\n")))
        | .ok () =>
          match r.method, r.path with
          | some method, some path => (r.storeModule body s, .binding method path (.loading 0))
          | _, _ => (r.storeModule body s, .responded (.stored r.name body.length))

def settle (method path : String) (progress : RouteProgress) : PutProgress :=
  match progress with
  | .returned (.bound (.ok ())) => .responded (.bound r.name (toAsciiUppercase (trim method)) path)
  | .returned (.bound (.error e)) => .responded (.text 400 ("400 " ++ e ++ "\n"))
  | progress => .binding method path progress

end PutRequest

inductive PutEvent where
  | own
  /-- Somebody else writes or removes an artifact, or publishes a table -/
  | artifact (name : String) (bytes : Option Bytes)
  | table (routes : DynamicRoutes)

namespace PutRun

variable (admin : DynamicAdmin) (r : PutRequest)

def start (s : ModuleStore) : PutRun := { shared := s, progress := .received }

def own (w : PutRun) : Option PutRun :=
  match w.progress with
  | .received => some { shared := (r.receive admin w.shared).1, progress := (r.receive admin w.shared).2 }
  | .binding method path progress =>
    let t : RouteTask := { call := .bindDynamicRoute method path r.name, progress := progress }
    (RouteCall.act admin.debug w.shared.routes t ()).map fun x =>
      { shared := { w.shared with routes := x.1 }, progress := r.settle method path x.2.progress }
  | .responded _ => none

def step (w : PutRun) (e : PutEvent) : Option PutRun :=
  match e with
  | .own => w.own admin r
  | .artifact name bytes =>
    some { w with shared := { w.shared with artifacts := Function.update w.shared.artifacts name bytes } }
  | .table routes => some { w with shared := { w.shared with routes := w.shared.routes.store routes } }

def Kept (w : PutRun) (e : PutEvent) (w' : PutRun) : Prop :=
  e = .own → w'.shared.artifacts r.name = w.shared.artifacts r.name ∧ w'.shared.routes = w.shared.routes

/-- If the run ends in an error, no step of the registration has changed anything. -/
def Atomic (w : PutRun) (es : List PutEvent) : Prop :=
  ∀ w' response, Machine.run (step admin r) w es = some w' → w'.progress = .responded response →
    400 ≤ response.status → Machine.Along (step admin r) (Kept r) w es

end PutRun

namespace PutRequest

variable (admin : DynamicAdmin) (r : PutRequest)

structure Uploads (body : Bytes) : Prop where
  enabled : admin.enabled = true
  name : validName r.name = true
  sends : r.body = some body
  nonempty : body ≠ []
  length : body.length ≤ maxModuleBytes
  validate : admin.validate body = .ok ()
  store : admin.store = .ok ()

instance (body : Bytes) : Decidable (r.Uploads admin body) :=
  decidable_of_iff
    (admin.enabled = true ∧ validName r.name = true ∧ r.body = some body ∧ body ≠ [] ∧ body.length ≤ maxModuleBytes
      ∧ (admin.validate body).isOk = true ∧ admin.store.isOk = true)
    (by
      rw [Except.isOk_iff, Except.isOk_iff]
      constructor
      . rintro ⟨henabled, hname, hsends, hnonempty, hlength, hvalidate, hstore⟩
        exact ⟨henabled, hname, hsends, hnonempty, hlength, hvalidate, hstore⟩
      . intro h
        exact ⟨h.enabled, h.name, h.sends, h.nonempty, h.length, h.validate, h.store⟩)

def uploads? : Option Bytes :=
  r.body.filter fun body => decide (r.Uploads admin body) && r.method.isSome == r.path.isSome

def Binds : Prop := r.method.isSome ∧ r.path.isSome

def Refused (t : DynamicRoutes) : Prop :=
  ∃ method path e, r.method = some method ∧ r.path = some path
    ∧ t.bind admin.debug method path r.name = .error e

variable {admin} {r} {s : ModuleStore}

theorem receive_uploads {body : Bytes} (h : r.Uploads admin body)
    : r.receive admin s
        =
      match r.method, r.path with
      | some method, some path => (r.storeModule body s, .binding method path (.loading 0))
      | none, none => (r.storeModule body s, .responded (.stored r.name body.length))
      | _, _ => (s, .responded (.text 400 "400 bind needs both 'method' and 'path' query params\n")) := by
  obtain ⟨b, body, rfl⟩ := List.exists_cons_of_ne_nil h.nonempty
  have hbody : (r.body.filter fun body => decide (body.length ≤ maxModuleBytes)) = some (b :: body) := by
    rw [h.sends, Option.filter_some, if_pos (decide_eq_true h.length)]
  unfold receive
  rw [h.enabled, h.name, hbody]
  simp only [h.validate, h.store]
  cases r.method with
  | none => cases r.path <;> rfl
  | some method => cases r.path <;> rfl

theorem receive_cases
    : ((r.receive admin s).1 = s ∧ ∃ response, (r.receive admin s).2 = .responded response ∧ 400 ≤ response.status)
        ∨ ((r.receive admin s).1 = s ∧ r.Binds
          ∧ ∃ method path, (r.receive admin s).2 = .binding method path (.loading 0))
        ∨ ∃ body, r.Uploads admin body := by
  unfold receive
  split
  . exact .inl ⟨rfl, _, rfl, by decide⟩
  next henabled =>
  split
  . exact .inl ⟨rfl, _, rfl, by decide⟩
  next hname =>
  split
  . exact .inl ⟨rfl, _, rfl, by decide⟩
  split
  . exact .inl ⟨rfl, _, rfl, by decide⟩
  . cases hmethod : r.method with
    | none => exact .inl ⟨rfl, _, rfl, by decide⟩
    | some method =>
      cases hpath : r.path with
      | none => exact .inl ⟨rfl, _, rfl, by decide⟩
      | some path =>
        dsimp only
        unfold bindOnly
        split
        . exact .inl ⟨rfl, _, rfl, by decide⟩
        . refine .inr (.inl ⟨rfl, ?_, method, path, rfl⟩)
          unfold Binds
          rw [hmethod, hpath]
          exact ⟨rfl, rfl⟩
  next body hne hbody =>
  cases hvalidate : admin.validate body with
  | error detail => exact .inl ⟨rfl, _, rfl, Nat.le_refl 400⟩
  | ok =>
    dsimp only
    cases hstore : admin.store with
    | error detail => exact .inl ⟨rfl, _, rfl, (by decide : 400 ≤ 500)⟩
    | ok =>
      right
      right
      rw [Option.filter_eq_some_iff] at hbody
      exact ⟨body, by simpa using henabled, by simpa using hname, hbody.1, hne, of_decide_eq_true hbody.2,
        hvalidate, hstore⟩

end PutRequest

namespace PutRun

variable {admin : DynamicAdmin} {r : PutRequest}

def Pending (progress : RouteProgress) : Prop :=
  (∃ attempt, progress = .loading attempt)
    ∨ ∃ attempt version next, progress = .swapping attempt version next (.bound (.ok ()))

def Settled (w : PutRun) : Prop :=
  ∀ method path progress, w.progress = .binding method path progress → Pending progress

theorem load_bind (debug : String → String) (method path module : String) (attempt : Nat) (s : RouteTable)
    : (∃ e, s.current.bind debug method path module = .error e
        ∧ RouteCall.load debug (.bindDynamicRoute method path module) attempt s = .returned (.bound (.error e)))
        ∨ ∃ next, s.current.bind debug method path module = .ok next
          ∧ RouteCall.load debug (.bindDynamicRoute method path module) attempt s
            = .swapping attempt s.version next (.bound (.ok ())) := by
  unfold RouteCall.load
  dsimp only
  cases s.current.bind debug method path module with
  | error e => exact .inl ⟨e, rfl, rfl⟩
  | ok next => exact .inr ⟨next, rfl, rfl⟩

theorem own_binding {w w' : PutRun} {method path : String} {progress : RouteProgress}
    (hw : w.progress = .binding method path progress) (hpending : Pending progress)
    (h : w.own admin r = some w')
    : (w'.shared = w.shared ∧ ((∃ progress', w'.progress = .binding method path progress' ∧ Pending progress')
          ∨ ∃ e, w'.progress = .responded (.text 400 ("400 " ++ e ++ "\n"))))
        ∨ w'.progress = .responded (.bound r.name (toAsciiUppercase (trim method)) path) := by
  unfold own at h
  rw [hw] at h
  obtain ⟨⟨routes, t⟩, hact, rfl⟩ := Option.map_eq_some_iff.mp h
  rcases RouteCall.act_cases hact with
    ⟨attempt, hprogress, rfl, rfl⟩ | ⟨attempt, next, reply, hprogress, rfl, rfl⟩
      | ⟨attempt, version, next, reply, hprogress, hne, rfl, rfl | ⟨hlast, rfl⟩⟩ | ⟨loaded, next, hprogress, rfl, rfl⟩
  . left
    refine ⟨rfl, ?_⟩
    rcases load_bind admin.debug method path r.name attempt w.shared.routes with ⟨e, -, hload⟩ | ⟨next, -, hload⟩
    . right
      refine ⟨e, ?_⟩
      dsimp only
      rw [hload]
      rfl
    . left
      refine ⟨_, ?_, .inr ⟨attempt, w.shared.routes.version, next, rfl⟩⟩
      dsimp only
      rw [hload]
      rfl
  . right
    dsimp only at hprogress
    rcases hpending with ⟨_, rfl⟩ | ⟨_, _, _, rfl⟩
    . cases hprogress
    . cases hprogress
      rfl
  . left
    exact ⟨rfl, .inl ⟨_, rfl, .inl ⟨attempt + 1, rfl⟩⟩⟩
  . left
    exact ⟨rfl, .inr ⟨_, rfl⟩⟩
  . dsimp only at hprogress
    rcases hpending with ⟨_, rfl⟩ | ⟨_, _, _, rfl⟩
    . cases hprogress
    . cases hprogress

theorem own_received {w w' : PutRun} (hw : w.progress = .received) (h : w.own admin r = some w')
    : w' = { shared := (r.receive admin w.shared).1, progress := (r.receive admin w.shared).2 } := by
  unfold own at h
  rw [hw] at h
  exact (Option.some.inj h).symm

theorem Settled.of_responded {w : PutRun} {response : PutResponse} (h : w.progress = .responded response)
    : w.Settled := by
  intro method path progress hbinding
  rw [h] at hbinding
  cases hbinding

theorem Settled.of_binding {w : PutRun} {method path : String} {progress : RouteProgress}
    (h : w.progress = .binding method path progress) (hpending : Pending progress)
    : w.Settled := by
  intro method' path' progress' hbinding
  rw [h] at hbinding
  cases hbinding
  exact hpending

theorem own_cases {w w' : PutRun} (hw : w.Settled) (h : w.own admin r = some w')
    : w'.Settled
        ∧ ((w'.shared.artifacts r.name = w.shared.artifacts r.name ∧ w'.shared.routes = w.shared.routes)
          ∨ (∃ response, w'.progress = .responded response ∧ response.status = 200)
          ∨ ∃ body, w.progress = .received ∧ r.Uploads admin body ∧ r.Binds
            ∧ w'.shared = r.storeModule body w.shared
            ∧ ∃ method path, r.method = some method ∧ r.path = some path
              ∧ w'.progress = .binding method path (.loading 0)) := by
  cases hprogress : w.progress with
  | received =>
    obtain rfl := own_received hprogress h
    -- The artifact is written with both of `method` and `path` or with neither, else the request is refused.
    rcases PutRequest.receive_cases
      with ⟨hsame, response, hresponse, -⟩ | ⟨hsame, -, method, path, hbinding⟩ | ⟨body, hbody⟩
    . exact ⟨.of_responded hresponse, .inl (by rw [hsame]; exact ⟨rfl, rfl⟩)⟩
    . exact ⟨.of_binding hbinding (.inl ⟨0, rfl⟩), .inl (by rw [hsame]; exact ⟨rfl, rfl⟩)⟩
    . have hreceive := PutRequest.receive_uploads hbody (s := w.shared)
      cases hmethod : r.method with
      | none =>
        cases hpath : r.path with
        | none =>
          rw [hmethod, hpath] at hreceive
          rw [hreceive]
          exact ⟨.of_responded rfl, .inr (.inl ⟨_, rfl, rfl⟩)⟩
        | some path =>
          rw [hmethod, hpath] at hreceive
          rw [hreceive]
          exact ⟨.of_responded rfl, .inl ⟨rfl, rfl⟩⟩
      | some method =>
        cases hpath : r.path with
        | none =>
          rw [hmethod, hpath] at hreceive
          rw [hreceive]
          exact ⟨.of_responded rfl, .inl ⟨rfl, rfl⟩⟩
        | some path =>
          rw [hmethod, hpath] at hreceive
          rw [hreceive]
          have hbinds : r.Binds := by
            unfold PutRequest.Binds
            rw [hmethod, hpath]
            exact ⟨rfl, rfl⟩
          exact ⟨.of_binding rfl (.inl ⟨0, rfl⟩), .inr (.inr ⟨body, rfl, hbody, hbinds, rfl, method, path, rfl, rfl, rfl⟩)⟩
  | binding method path progress =>
    rcases own_binding hprogress (hw method path progress hprogress) h with
      ⟨hsame, ⟨progress', hbinding, hpending⟩ | ⟨e, herror⟩⟩ | hbound
    . exact ⟨.of_binding hbinding hpending, .inl (by rw [hsame]; exact ⟨rfl, rfl⟩)⟩
    . exact ⟨.of_responded herror, .inl (by rw [hsame]; exact ⟨rfl, rfl⟩)⟩
    . exact ⟨.of_responded hbound, .inr (.inl ⟨_, hbound, rfl⟩)⟩
  | responded response =>
    unfold own at h
    rw [hprogress] at h
    cases h

theorem step_responded {w w' : PutRun} {e : PutEvent} {response : PutResponse}
    (hw : w.progress = .responded response) (h : w.step admin r e = some w')
    : w'.progress = .responded response := by
  cases e with
  | own =>
    unfold step own at h
    rw [hw] at h
    cases h
  | artifact name bytes =>
    cases h
    exact hw
  | table routes =>
    cases h
    exact hw

theorem run_responded {w w' : PutRun} {es : List PutEvent} {response : PutResponse}
    (hw : w.progress = .responded response) (h : Machine.run (step admin r) w es = some w')
    : w'.progress = .responded response :=
  Machine.inv_of_run_all (fun _ _ _ hu hstep => step_responded hu hstep) hw h

theorem step_settled {w w' : PutRun} {e : PutEvent} (hw : w.Settled) (h : w.step admin r e = some w')
    : w'.Settled := by
  cases e with
  | own => exact (own_cases hw h).1
  | artifact name bytes =>
    cases h
    exact hw
  | table routes =>
    cases h
    exact hw

theorem own_ne_received {w w' : PutRun} (hw : w.Settled) (h : w.own admin r = some w') : w'.progress ≠ .received := by
  cases hprogress : w.progress with
  | received =>
    obtain rfl := own_received hprogress h
    dsimp only
    rcases PutRequest.receive_cases with ⟨-, response, hresponse, -⟩ | ⟨-, -, method, path, hbinding⟩ | ⟨body, hbody⟩
    . rw [hresponse]
      simp
    . rw [hbinding]
      simp
    . rw [PutRequest.receive_uploads hbody]
      cases r.method with
      | none => cases r.path <;> simp
      | some method => cases r.path <;> simp
  | binding method path progress =>
    rcases own_binding hprogress (hw method path progress hprogress) h with
      ⟨-, ⟨progress', hbinding, -⟩ | ⟨e, herror⟩⟩ | hbound
    . simp [hbinding]
    . simp [herror]
    . simp [hbound]
  | responded response =>
    unfold own at h
    rw [hprogress] at h
    cases h

theorem atomic_of_settled {w : PutRun} (hw : w.Settled)
    (hok : w.progress = .received → ¬((∃ body, r.Uploads admin body) ∧ r.Binds)) (es : List PutEvent)
    : w.Atomic admin r es := by
  intro w' response hrun hresponse herror
  induction es generalizing w with
  | nil => trivial
  | cons e es ih =>
    intro u hu
    have hrest : Machine.run (step admin r) u es = some w' := by
      rw [← Machine.run_of_step _ hu]
      exact hrun
    refine ⟨?_, ih (step_settled hw hu) ?_ hrest⟩
    . rintro rfl
      rcases (own_cases hw hu).2 with hkept | ⟨response', hresponse', hstatus⟩ | ⟨body, hreceived, hbody, hbinds, -⟩
      . exact hkept
      . rw [run_responded hresponse' hrest] at hresponse
        cases hresponse
        rw [hstatus] at herror
        exact absurd herror (by decide)
      . exact absurd ⟨⟨body, hbody⟩, hbinds⟩ (hok hreceived)
    . intro hreceived
      cases e with
      | own => exact absurd hreceived (own_ne_received hw hu)
      | artifact name bytes =>
        cases hu
        exact hok hreceived
      | table routes =>
        cases hu
        exact hok hreceived

theorem settled_start (s : ModuleStore) : (start s).Settled := by
  intro method path progress h
  cases h

theorem run_contention {method path : String} (attempt : Nat) (hattempt : attempt < RouteCall.attempts) {w : PutRun}
    (hw : w.progress = .binding method path (.loading attempt))
    : ∃ es w' e, Machine.run (step admin r) w es = some w'
      ∧ w'.progress = .responded (.text 400 ("400 " ++ e ++ "\n")) := by
  induction hleft : RouteCall.attempts - attempt generalizing attempt w with
  | zero => omega
  | succ left ih =>
    have hload := load_bind admin.debug method path r.name attempt w.shared.routes
    have hown : w.step admin r .own = some {
        shared := w.shared
        progress := r.settle method path
          (RouteCall.load admin.debug (.bindDynamicRoute method path r.name) attempt w.shared.routes) } := by
      unfold step own
      rw [hw]
      rfl
    rcases hload with ⟨e, -, hload⟩ | ⟨next, -, hload⟩
    . rw [hload] at hown
      exact ⟨[.own], _, e, Machine.run_of_step _ hown [], rfl⟩
    . rw [hload] at hown
      -- Somebody publishes the table once more before the swap.
      let routes := w.shared.routes.store w.shared.routes.current
      let t : RouteTask := {
        call := .bindDynamicRoute method path r.name
        progress := .swapping attempt w.shared.routes.version next (.bound (.ok ())) }
      have hversion : w.shared.routes.version ≠ routes.version := by
        rw [ArcSwap.version_store]
        omega
      have htable : step admin r { shared := w.shared, progress := .binding method path t.progress }
          (.table w.shared.routes.current)
          = some { shared := { w.shared with routes := routes }, progress := .binding method path t.progress } := by
        rfl
      have hlost : step admin r
          { shared := { w.shared with routes := routes }, progress := .binding method path t.progress } .own
          = some {
            shared := { w.shared with routes := routes }
            progress := r.settle method path
              (t.call.swap attempt w.shared.routes.version next (.bound (.ok ())) routes).2 } := by
        rcases RouteCall.swap_cases t.call attempt w.shared.routes.version next (.bound (.ok ())) routes with
          ⟨heq, -⟩ | ⟨-, -, hswap⟩ | ⟨-, -, hswap⟩
        . exact absurd heq hversion
        . simp only [step, own, RouteCall.act, t, hswap]
          rfl
        . simp only [step, own, RouteCall.act, t, hswap]
          rfl
      rcases RouteCall.swap_cases t.call attempt w.shared.routes.version next (.bound (.ok ())) routes with
        ⟨heq, -⟩ | ⟨-, hlt, hswap⟩ | ⟨-, -, hswap⟩
      . exact absurd heq hversion
      . rw [hswap] at hlost
        have hagain : PutRun.progress
            { shared := { w.shared with routes := routes }, progress := .binding method path (.loading (attempt + 1)) }
            = .binding method path (.loading (attempt + 1)) := by
          rfl
        obtain ⟨es, w', e, hrun, hw'⟩ := ih (attempt + 1) hlt hagain (by omega)
        refine ⟨.own :: .table w.shared.routes.current :: .own :: es, w', e, ?_, hw'⟩
        rw [Machine.run_of_step _ hown]
        refine (Machine.run_of_step _ htable _).trans ?_
        exact (Machine.run_of_step _ hlost _).trans hrun
      . rw [hswap] at hlost
        refine ⟨[.own, .table w.shared.routes.current, .own], {
          shared := { w.shared with routes := routes }
          progress := r.settle method path (.returned t.call.exhausted) },
          "dynamic route table contention; retry", ?_, rfl⟩
        rw [Machine.run_of_step _ hown]
        refine (Machine.run_of_step _ htable _).trans ?_
        exact Machine.run_of_step _ hlost []

/-- Nobody else works on the table, and it takes the binding. -/
def Undisturbed (admin : DynamicAdmin) (r : PutRequest) (w : PutRun) : Prop :=
  (∃ method path, w.progress = .binding method path (.loading 0)
    ∧ ∃ next, w.shared.routes.current.bind admin.debug method path r.name = .ok next)
    ∨ (∃ method path next, w.progress
      = .binding method path (.swapping 0 w.shared.routes.version next (.bound (.ok ()))))
    ∨ ∃ response, w.progress = .responded response ∧ response.status = 200

theorem undisturbed_own {w w' : PutRun} (hw : w.Undisturbed admin r) (h : w.own admin r = some w')
    : w'.Undisturbed admin r := by
  unfold own at h
  rcases hw with ⟨method, path, hprogress, next, hbind⟩ | ⟨method, path, next, hprogress⟩ | ⟨response, hprogress, -⟩
  . rw [hprogress] at h
    obtain ⟨⟨routes, t⟩, hact, rfl⟩ := Option.map_eq_some_iff.mp h
    cases hact
    right
    left
    refine ⟨method, path, next, ?_⟩
    unfold RouteCall.load
    dsimp only
    rw [hbind]
    rfl
  . rw [hprogress] at h
    obtain ⟨⟨routes, t⟩, hact, rfl⟩ := Option.map_eq_some_iff.mp h
    unfold RouteCall.act at hact
    rcases RouteCall.swap_cases (.bindDynamicRoute method path r.name) 0 w.shared.routes.version next
        (.bound (.ok ())) w.shared.routes with ⟨-, hswap⟩ | ⟨hne, -⟩ | ⟨hne, -⟩
    . simp only [hswap] at hact
      cases hact
      exact .inr (.inr ⟨_, rfl, rfl⟩)
    . exact absurd rfl hne
    . exact absurd rfl hne
  . rw [hprogress] at h
    cases h

theorem status_of_undisturbed {w w' : PutRun} (hw : w.Undisturbed admin r) {n : Nat}
    (hrun : Machine.run (step admin r) w (List.replicate n .own) = some w') {response : PutResponse}
    (hresponse : w'.progress = .responded response)
    : response.status = 200 := by
  induction n generalizing w with
  | zero =>
    cases hrun
    rcases hw with ⟨_, _, hprogress, -⟩ | ⟨_, _, _, hprogress⟩ | ⟨_, hprogress, hstatus⟩
    . rw [hprogress] at hresponse
      cases hresponse
    . rw [hprogress] at hresponse
      cases hresponse
    . rw [hprogress] at hresponse
      cases hresponse
      exact hstatus
  | succ n ih =>
    rw [List.replicate_succ] at hrun
    obtain ⟨u, hu, hrest⟩ := (Machine.run_cons_eq_some _).mp hrun
    exact ih (undisturbed_own hw hu) hrest

theorem own_uploads {body : Bytes} {method path : String} (hbody : r.Uploads admin body)
    (hmethod : r.method = some method) (hpath : r.path = some path) (s : ModuleStore)
    : step admin r (start s) .own
        =
      some { shared := r.storeModule body s, progress := .binding method path (.loading 0) } := by
  have hreceive := PutRequest.receive_uploads hbody (s := s)
  rw [hmethod, hpath] at hreceive
  unfold step own start
  dsimp only
  rw [hreceive]

theorem atomic_iff
    : (∀ s es, (start s).Atomic admin r es) ↔ ¬((∃ body, r.Uploads admin body) ∧ r.Binds) := by
  constructor
  . rintro hatomic ⟨⟨body, hbody⟩, hm, hp⟩
    obtain ⟨method, hmethod⟩ := Option.isSome_iff_exists.mp hm
    obtain ⟨path, hpath⟩ := Option.isSome_iff_exists.mp hp
    let s : ModuleStore := { artifacts := fun _ => none, routes := ArcSwap.new {} }
    have hfirst := own_uploads hbody hmethod hpath s
    have hprogress : PutRun.progress
        { shared := r.storeModule body s, progress := .binding method path (.loading 0) }
        = .binding method path (.loading 0) := by
      rfl
    have hcontention : ∃ es w' e, Machine.run (step admin r) _ es = some w'
        ∧ w'.progress = .responded (.text 400 ("400 " ++ e ++ "\n")) :=
      run_contention 0 (by decide) hprogress
    obtain ⟨es, w', e, hrun, hw'⟩ := hcontention
    have halong := hatomic s (.own :: es) w' _ ((Machine.run_of_step _ hfirst es).trans hrun) hw' (Nat.le_refl 400)
    have hkept := ((halong _ hfirst).1 rfl).1
    unfold PutRequest.storeModule at hkept
    dsimp only at hkept
    rw [Function.update_self] at hkept
    cases hkept
  . intro hnot s es
    exact atomic_of_settled (settled_start s) (fun _ => hnot) es

theorem atomic_undisturbed_iff (s : ModuleStore)
    : (∀ n, (start s).Atomic admin r (List.replicate n .own))
        ↔
      ¬∃ body, r.Uploads admin body ∧ r.Refused admin s.routes.current ∧ s.artifacts r.name ≠ some body := by
  constructor
  . rintro hatomic ⟨body, hbody, ⟨method, path, e, hmethod, hpath, hbind⟩, hdiffers⟩
    have hfirst := own_uploads hbody hmethod hpath s
    have hsecond : step admin r
        { shared := r.storeModule body s, progress := .binding method path (.loading 0) } .own
        = some {
          shared := r.storeModule body s
          progress := .responded (.text 400 ("400 " ++ e ++ "\n")) } := by
      have hbind' : (r.storeModule body s).routes.current.bind admin.debug method path r.name = .error e := hbind
      simp only [step, own, RouteCall.act, RouteCall.load, hbind']
      rfl
    have hrun : Machine.run (step admin r) (start s) (List.replicate 2 .own) = some {
        shared := r.storeModule body s
        progress := .responded (.text 400 ("400 " ++ e ++ "\n")) } :=
      (Machine.run_of_step _ hfirst [.own]).trans (Machine.run_of_step _ hsecond [])
    have hkept := ((hatomic 2 _ _ hrun rfl (Nat.le_refl 400) _ hfirst).1 rfl).1
    unfold PutRequest.storeModule at hkept
    dsimp only at hkept
    rw [Function.update_self] at hkept
    exact hdiffers hkept.symm
  . intro hnot n w' response hrun hresponse herror
    cases n with
    | zero => trivial
    | succ n =>
      rw [List.replicate_succ] at hrun ⊢
      intro u hu
      have hsettled := settled_start s
      have hrest : Machine.run (step admin r) u (List.replicate n .own) = some w' := by
        rw [← Machine.run_of_step _ hu]
        exact hrun
      refine ⟨?_, ?_⟩
      . intro _
        rcases (own_cases hsettled hu).2 with
          hkept | ⟨response', hresponse', hstatus⟩
            | ⟨body, -, hbody, -, hshared, method, path, hmethod, hpath, hbinding⟩
        . exact hkept
        . rw [run_responded hresponse' hrest] at hresponse
          cases hresponse
          rw [hstatus] at herror
          exact absurd herror (by decide)
        -- What is written was there before, or the binding is not refused and the answer is no error.
        . by_cases hsame : s.artifacts r.name = some body
          . rw [hshared]
            unfold PutRequest.storeModule
            dsimp only
            rw [Function.update_self]
            exact ⟨hsame.symm, rfl⟩
          . have hundisturbed : u.Undisturbed admin r := by
              left
              refine ⟨method, path, hbinding, ?_⟩
              rw [hshared]
              cases hbind : s.routes.current.bind admin.debug method path r.name with
              | ok next => exact ⟨next, hbind⟩
              | error e => exact absurd ⟨body, hbody, ⟨method, path, e, hmethod, hpath, hbind⟩, hsame⟩ hnot
            rw [status_of_undisturbed hundisturbed hrest hresponse] at herror
            exact absurd herror (by decide)
      . apply atomic_of_settled (step_settled hsettled hu) _ _ w' response hrest hresponse herror
        intro hreceived
        exact absurd hreceived (own_ne_received hsettled hu)

end PutRun

theorem register_atomic_iff (admin : DynamicAdmin) (r : PutRequest)
    : ((∀ s es, (PutRun.start s).Atomic admin r es) ↔ ¬((∃ body, r.Uploads admin body) ∧ r.Binds))
        ∧
      ∀ s, (∀ n, (PutRun.start s).Atomic admin r (List.replicate n .own))
        ↔ ¬∃ body, r.Uploads admin body ∧ r.Refused admin s.routes.current ∧ s.artifacts r.name ≠ some body :=
  ⟨PutRun.atomic_iff, PutRun.atomic_undisturbed_iff⟩

def okModule : Bytes :=
  ("(module\n  (memory (export \"memory\") 1)\n"
    ++ "  (func (export \"orr_on_phase\") (param i32 i32) (result i32) i32.const 0)\n"
    ++ "  (func (export \"orr_alloc\") (param i32) (result i32) i32.const 0))").toUTF8.data.toList

def okModuleAdmin : DynamicAdmin where
  enabled := true
  validate body := if body = okModule then .ok () else .error "compile failed"
  store := .ok ()
  debug s := "\"" ++ s ++ "\""

def badRoute : PutRequest where
  name := "echo"
  method := some "GET"
  path := some "no-slash"
  body := some okModule

theorem register_stores_and_fails
    : ∃ w : PutRun,
        Machine.run (PutRun.step okModuleAdmin badRoute)
            (PutRun.start { artifacts := fun _ => none, routes := ArcSwap.new {} }) [.own, .own] = some w
          ∧ (∃ response, w.progress = .responded response ∧ response.status = 400)
          ∧ w.shared.artifacts "echo" = some okModule := by
  have hrun : (Machine.run (PutRun.step okModuleAdmin badRoute)
      (PutRun.start { artifacts := fun _ => none, routes := ArcSwap.new {} }) [.own, .own]).map
        (fun w => (w.progress, w.shared.artifacts "echo"))
      = some (.responded (.text 400 "400 invalid path \"no-slash\": must start with '/'\n"), some okModule) := by
    decide +kernel
  obtain ⟨w, hw, heq⟩ := Option.map_eq_some_iff.mp hrun
  rw [Prod.mk.injEq] at heq
  exact ⟨w, hw, ⟨_, heq.1, rfl⟩, heq.2⟩

end OpenRusty
