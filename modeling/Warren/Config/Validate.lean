import Mathlib.Data.List.Perm.Basic
import Warren.Security.Hostname
import Warren.Security.URL

/-! `validate` of `internal/config`, the checks a configuration passes before the
orchestrator starts. `Agents` is a Go map, which `range` visits in an order the runtime
picks afresh each time; a `Config` holds its entries in the order of one such visit. The
loop's state is the map `hostnames` from each hostname claimed so far to the agent that
claimed it. Acceptance is characterised by conditions on the entries that no reordering
changes, so that every visiting order gives the same verdict. -/

namespace Warren.Config

open Warren.Security

/-- The fields of `config.Agent` that `validate` reads. -/
structure Agent where
  hostname : List UInt8
  hostnames : List (List UInt8)
  backend : List UInt8
  policy : List UInt8
  /-- `Container.Name` -/
  containerName : List UInt8
  /-- `Health.URL` -/
  healthURL : List UInt8
  /-- `Idle.Timeout`, a `time.Duration`. -/
  idleTimeout : Int
deriving DecidableEq, Repr

/-- The fields of `config.WebhookConfig` that `validate` and the alerter read. -/
structure WebhookConfig where
  url : List UInt8
  /-- The event types the webhook subscribes to; none means all. -/
  events : List (List UInt8)
deriving DecidableEq, Repr

end Warren.Config

namespace Warren

structure Config where
  /-- `Agents`, the map from agent name to agent, as its entries in the order of one
  `range` over it. -/
  agents : List (List UInt8 × Config.Agent)
  names_nodup : (agents.map Prod.fst).Nodup
  webhooks : List Config.WebhookConfig

end Warren

namespace Warren.Config

open Warren.Security

inductive ConfigError
  /-- "config: no agents defined" -/
  | noAgents
  /-- "config: agent %q missing hostname" -/
  | missingHostname (name : List UInt8)
  /-- "config: agent %q missing backend" -/
  | missingBackend (name : List UInt8)
  /-- "config: agent %q invalid backend URL: %w" -/
  | invalidBackendURL (name err : List UInt8)
  /-- "config: agent %q missing policy" -/
  | missingPolicy (name : List UInt8)
  /-- "config: agent %q unknown policy %q" -/
  | unknownPolicy (name policy : List UInt8)
  /-- "config: agent %q with always-on policy requires container.name", and the same with
  on-demand. -/
  | requiresContainerName (name policy : List UInt8)
  /-- "config: agent %q with always-on policy requires health.url", and the same with
  on-demand. -/
  | requiresHealthURL (name policy : List UInt8)
  /-- "config: agent %q with on-demand policy requires idle.timeout > 0" -/
  | requiresIdleTimeout (name : List UInt8)
  /-- "config: agent %q hostname %q: %w" -/
  | invalidHostname (name hostname : List UInt8) (err : HostnameError)
  /-- "config: duplicate hostname %q (agents %q and %q)" -/
  | duplicateHostname (hostname prev name : List UInt8)
  /-- "config: agent %q invalid health URL: %w" -/
  | invalidHealthURL (name : List UInt8) (err : URLError)
  /-- "config: webhook[%d] invalid URL %q: %w" -/
  | invalidWebhookURL (index : Nat) (url : List UInt8) (err : URLError)

/-- `validate`'s `switch agent.Policy`. -/
def checkPolicy (name policy : List UInt8) : Except ConfigError Unit :=
  if policy = ascii "always-on" ∨ policy = ascii "unmanaged" ∨ policy = ascii "on-demand" then
    .ok ()
  else if policy = [] then .error (.missingPolicy name)
  else .error (.unknownPolicy name policy)

/-- The requirements `validate` states twice, for `always-on` and for `on-demand`. -/
def checkManaged (name policy : List UInt8) (a : Agent) : Except ConfigError Unit := do
  failIf (a.containerName = []) (.requiresContainerName name policy)
  failIf (a.healthURL = []) (.requiresHealthURL name policy)

/-- The checks of one agent that come before its hostnames. -/
def checkAgent (net : Net) (name : List UInt8) (a : Agent) : Except ConfigError Unit := do
  failIf (a.hostname = []) (.missingHostname name)
  failIf (a.backend = []) (.missingBackend name)
  let _ ← (net.parseURL a.backend).mapError (.invalidBackendURL name)
  checkPolicy name a.policy
  (if a.policy = ascii "always-on" then checkManaged name (ascii "always-on") a else pure ())
  (if a.policy = ascii "on-demand" then
      checkManaged name (ascii "on-demand") a >>= fun () =>
        failIf (a.idleTimeout ≤ 0) (.requiresIdleTimeout name)
    else pure ())

/-- One pass of the loop over `allHostnames`: an empty entry is skipped; any other must be a
valid hostname that no agent has claimed yet, and is then claimed for `name`. -/
def registerHostname (name : List UInt8) (hostnames : List (List UInt8 × List UInt8))
    (h : List UInt8) : Except ConfigError (List (List UInt8 × List UInt8)) :=
  if h = [] then .ok hostnames
  else match validateHostname h with
    | .error err => .error (.invalidHostname name h err)
    | .ok () =>
      match hostnames.lookup h with
      | some prev => .error (.duplicateHostname h prev name)
      | none => .ok ((h, name) :: hostnames)

/-- One pass of the loop over `cfg.Agents`. -/
def validateAgent (net : Net) (hostnames : List (List UInt8 × List UInt8)) (name : List UInt8)
    (a : Agent) : Except ConfigError (List (List UInt8 × List UInt8)) := do
  checkAgent net name a
  let hostnames ← (a.hostname :: a.hostnames).foldlM (registerHostname name) hostnames
  (if a.healthURL ≠ [] then (validateHealthURL net a.healthURL).mapError (.invalidHealthURL name)
    else pure ())
  return hostnames

/-- The loop over `cfg.Webhooks`, `i` the index of the first of `whs`. -/
def validateWebhooks (net : Net) (i : Nat) : List WebhookConfig → Except ConfigError Unit
  | [] => .ok ()
  | wh :: whs => do
    (validateWebhookURL net wh.url).mapError (.invalidWebhookURL i wh.url)
    validateWebhooks net (i + 1) whs

def validate (net : Net) (cfg : Config) : Except ConfigError Unit := do
  failIf (cfg.agents = []) .noAgents
  let _ ← cfg.agents.foldlM (fun hostnames e => validateAgent net hostnames e.1 e.2) []
  validateWebhooks net 0 cfg.webhooks

/-! ### Acceptance -/

theorem checkPolicy_eq_ok_iff (name policy : List UInt8) (u : Unit) :
    checkPolicy name policy = .ok u ↔
      policy = ascii "always-on" ∨ policy = ascii "unmanaged" ∨ policy = ascii "on-demand" := by
  unfold checkPolicy
  split_ifs <;> simp_all

theorem checkManaged_eq_ok_iff (name policy : List UInt8) (a : Agent) (u : Unit) :
    checkManaged name policy a = .ok u ↔ a.containerName ≠ [] ∧ a.healthURL ≠ [] := by
  simp [checkManaged, bind_eq_ok_iff]

theorem checkAgent_eq_ok_iff (net : Net) (name : List UInt8) (a : Agent) (u : Unit) :
    checkAgent net name a = .ok u ↔ a.hostname ≠ [] ∧ a.backend ≠ [] ∧
      (∃ u, net.parseURL a.backend = .ok u) ∧
      (a.policy = ascii "always-on" ∨ a.policy = ascii "unmanaged" ∨ a.policy = ascii "on-demand") ∧
      (a.policy = ascii "always-on" → a.containerName ≠ [] ∧ a.healthURL ≠ []) ∧
      (a.policy = ascii "on-demand" → a.containerName ≠ [] ∧ a.healthURL ≠ [] ∧ 0 < a.idleTimeout) := by
  simp [checkAgent, bind_eq_ok_iff, mapError_eq_ok_iff, checkPolicy_eq_ok_iff, checkManaged_eq_ok_iff, and_assoc]

theorem lookup_eq_none_iff {m : List (List UInt8 × List UInt8)} {h : List UInt8} :
    m.lookup h = none ↔ h ∉ m.map Prod.fst := by
  simp only [List.lookup_eq_none_iff, bne_iff_ne, ne_eq, List.mem_map, not_exists, not_and]
  exact ⟨fun H p hp e => H p hp e.symm, fun H p hp e => H p hp e.symm⟩

theorem registerHostname_eq_ok_iff (name : List UInt8) (m m' : List (List UInt8 × List UInt8))
    (h : List UInt8) :
    registerHostname name m h = .ok m' ↔ (h = [] ∧ m' = m) ∨
      (h ≠ [] ∧ validateHostname h = .ok () ∧ h ∉ m.map Prod.fst ∧ m' = (h, name) :: m) := by
  unfold registerHostname
  by_cases he : h = []
  · simp [he, eq_comm]
  · rcases hv : validateHostname h with e | u
    · simp [he]
    · rcases hl : m.lookup h with _ | prev
      · simp [he, lookup_eq_none_iff.1 hl, eq_comm]
      · have hk : h ∈ m.map Prod.fst := by
          by_contra hn
          simp [lookup_eq_none_iff.2 hn] at hl
        simp [he, hk]

/-- The map `hostnames` gains `hs`, claimed for `name`, the latest first. -/
def claimed (name : List UInt8) (hs : List (List UInt8)) : List (List UInt8 × List UInt8) :=
  (hs.map fun h => (h, name)).reverse

theorem foldlM_registerHostname_eq_ok_iff (name : List UInt8) (hs : List (List UInt8))
    {m : List (List UInt8 × List UInt8)} (hm : (m.map Prod.fst).Nodup)
    (m' : List (List UInt8 × List UInt8)) :
    hs.foldlM (registerHostname name) m = .ok m' ↔
      (∀ h ∈ hs.filter (· ≠ []), validateHostname h = .ok ()) ∧
      (hs.filter (· ≠ []) ++ m.map Prod.fst).Nodup ∧ m' = claimed name (hs.filter (· ≠ [])) ++ m := by
  induction hs generalizing m with
  | nil => simp [hm, claimed, pure, Except.pure, eq_comm]
  | cons h hs ih =>
    simp only [List.foldlM_cons, bind_eq_ok_iff, registerHostname_eq_ok_iff]
    by_cases he : h = []
    · simp [he, ih hm]
    · have hf : (h :: hs).filter (· ≠ []) = h :: hs.filter (· ≠ []) :=
        List.filter_cons_of_pos (by simpa using he)
      have hc : claimed name (h :: hs.filter (· ≠ [])) ++ m =
          claimed name (hs.filter (· ≠ [])) ++ (h, name) :: m := by
        simp [claimed]
      have hnodup : ∀ F : List (List UInt8), (F ++ ((h, name) :: m).map Prod.fst).Nodup ↔
          (h ∉ F ∧ h ∉ m.map Prod.fst) ∧ (F ++ m.map Prod.fst).Nodup := fun F => by
        rw [List.map_cons, List.perm_middle.nodup_iff, List.nodup_cons, List.mem_append, not_or]
      rw [hf, hc, List.forall_mem_cons, List.cons_append, List.nodup_cons, List.mem_append, not_or]
      constructor
      · rintro ⟨m₁, (⟨rfl, -⟩ | ⟨-, hv, hh, rfl⟩), hrest⟩
        · exact absurd rfl he
        · obtain ⟨hvs, hnd, rfl⟩ := (@ih ((h, name) :: m) (List.nodup_cons.2 ⟨hh, hm⟩)).1 hrest
          exact ⟨⟨hv, hvs⟩, (hnodup _).1 hnd, rfl⟩
      · rintro ⟨⟨hv, hvs⟩, hnd, rfl⟩
        exact ⟨_, .inr ⟨he, hv, hnd.1.2, rfl⟩,
          (@ih ((h, name) :: m) (List.nodup_cons.2 ⟨hnd.1.2, hm⟩)).2 ⟨hvs, (hnodup _).2 hnd, rfl⟩⟩

@[simp] theorem keys_claimed (name : List UInt8) (hs : List (List UInt8)) :
    (claimed name hs).map Prod.fst = hs.reverse := by
  simp [claimed, List.map_reverse, Function.comp_def]

/-- The entries of `allHostnames` the loop registers: `Hostname`, then `Hostnames`, the empty
ones skipped. -/
def agentHostnames (a : Agent) : List (List UInt8) := (a.hostname :: a.hostnames).filter (· ≠ [])

/-- What `validate` requires of each agent on its own, apart from hostnames that no other
agent claims. -/
structure Agent.Valid (net : Net) (a : Agent) : Prop where
  hostname_ne_nil : a.hostname ≠ []
  backend_ne_nil : a.backend ≠ []
  backend_parses : ∃ u, net.parseURL a.backend = .ok u
  policy_known :
    a.policy = ascii "always-on" ∨ a.policy = ascii "unmanaged" ∨ a.policy = ascii "on-demand"
  alwaysOn_requires : a.policy = ascii "always-on" → a.containerName ≠ [] ∧ a.healthURL ≠ []
  onDemand_requires :
    a.policy = ascii "on-demand" → a.containerName ≠ [] ∧ a.healthURL ≠ [] ∧ 0 < a.idleTimeout
  hostnames_valid : ∀ h ∈ agentHostnames a, validateHostname h = .ok ()
  healthURL_valid : a.healthURL ≠ [] → validateHealthURL net a.healthURL = .ok ()

theorem validateAgent_eq_ok_iff (net : Net) {m : List (List UInt8 × List UInt8)}
    (hm : (m.map Prod.fst).Nodup) (name : List UInt8) (a : Agent)
    (m' : List (List UInt8 × List UInt8)) :
    validateAgent net m name a = .ok m' ↔ a.Valid net ∧
      (agentHostnames a ++ m.map Prod.fst).Nodup ∧ m' = claimed name (agentHostnames a) ++ m := by
  simp only [validateAgent, bind_eq_ok_iff, checkAgent_eq_ok_iff,
    foldlM_registerHostname_eq_ok_iff _ _ hm, ite_pure_eq_ok_iff, mapError_eq_ok_iff]
  constructor
  · rintro ⟨_, ⟨h1, h2, h3, h4, h5, h6⟩, m₁, ⟨hv, hnd, rfl⟩, _, hh, he⟩
    exact ⟨⟨h1, h2, h3, h4, h5, h6, hv, hh⟩, hnd, (Except.ok.inj he).symm⟩
  · rintro ⟨⟨h1, h2, h3, h4, h5, h6, hv, hh⟩, hnd, rfl⟩
    exact ⟨(), ⟨h1, h2, h3, h4, h5, h6⟩, _, ⟨hv, hnd, rfl⟩, (), hh, rfl⟩

/-- Every hostname the agent loop registers, agent after agent in visiting order. -/
def hostnameList (agents : List (List UInt8 × Agent)) : List (List UInt8) :=
  agents.flatMap fun e => agentHostnames e.2

@[simp] theorem hostnameList_nil : hostnameList [] = [] := rfl

@[simp] theorem hostnameList_cons (e : List UInt8 × Agent) (es : List (List UInt8 × Agent)) :
    hostnameList (e :: es) = agentHostnames e.2 ++ hostnameList es := rfl

theorem foldlM_validateAgent_eq_ok_iff (net : Net) (agents : List (List UInt8 × Agent))
    {m : List (List UInt8 × List UInt8)} (hm : (m.map Prod.fst).Nodup)
    (m' : List (List UInt8 × List UInt8)) :
    agents.foldlM (fun hostnames e => validateAgent net hostnames e.1 e.2) m = .ok m' ↔
      (∀ e ∈ agents, e.2.Valid net) ∧ (hostnameList agents ++ m.map Prod.fst).Nodup ∧
      m' = agents.foldl (fun hostnames e => claimed e.1 (agentHostnames e.2) ++ hostnames) m := by
  induction agents generalizing m with
  | nil => simp [hm, pure, Except.pure, eq_comm]
  | cons e es ih =>
    simp only [List.foldlM_cons, bind_eq_ok_iff, validateAgent_eq_ok_iff net hm,
      List.forall_mem_cons, hostnameList_cons, List.foldl_cons]
    have hperm : (hostnameList es ++ (claimed e.1 (agentHostnames e.2) ++ m).map Prod.fst).Perm
        (agentHostnames e.2 ++ hostnameList es ++ m.map Prod.fst) := by
      rw [List.map_append, keys_claimed, ← List.append_assoc]
      exact (List.perm_append_comm.trans ((List.reverse_perm _).append_right _)).append_right _
    have hkeys : (agentHostnames e.2 ++ m.map Prod.fst).Nodup →
        ((claimed e.1 (agentHostnames e.2) ++ m).map Prod.fst).Nodup := fun h => by
      rwa [List.map_append, keys_claimed, ((List.reverse_perm _).append_right _).nodup_iff]
    constructor
    · rintro ⟨_, ⟨hv, hnd, rfl⟩, hrest⟩
      obtain ⟨hvs, hnd', rfl⟩ := (ih (hkeys hnd)).1 hrest
      exact ⟨⟨hv, hvs⟩, hperm.nodup_iff.1 hnd', rfl⟩
    · rintro ⟨⟨hv, hvs⟩, hnd, rfl⟩
      have hnd₁ : (agentHostnames e.2 ++ m.map Prod.fst).Nodup :=
        hnd.sublist (by rw [List.append_assoc]; exact (List.sublist_append_right _ _).append_left _)
      exact ⟨_, ⟨hv, hnd₁, rfl⟩, (ih (hkeys hnd₁)).2 ⟨hvs, hperm.nodup_iff.2 hnd, rfl⟩⟩

theorem validateWebhooks_eq_ok_iff (net : Net) (i : Nat) (whs : List WebhookConfig) :
    validateWebhooks net i whs = .ok () ↔ ∀ wh ∈ whs, validateWebhookURL net wh.url = .ok () := by
  induction whs generalizing i with
  | nil => simp [validateWebhooks]
  | cons wh whs ih => simp [validateWebhooks, bind_eq_ok_iff, mapError_eq_ok_iff, ih, Unique.exists_iff]

theorem validate_eq_ok_iff (net : Net) (cfg : Config) :
    validate net cfg = .ok () ↔ cfg.agents ≠ [] ∧ (∀ e ∈ cfg.agents, e.2.Valid net) ∧
      (hostnameList cfg.agents).Nodup ∧ ∀ wh ∈ cfg.webhooks, validateWebhookURL net wh.url = .ok () := by
  simp [validate, bind_eq_ok_iff, @foldlM_validateAgent_eq_ok_iff net cfg.agents [] List.nodup_nil,
    validateWebhooks_eq_ok_iff, Unique.exists_iff, and_assoc]

theorem validate_verdict_order_independent (net : Net) (cfg cfg' : Config)
    (hperm : cfg.agents.Perm cfg'.agents) (hwebhooks : cfg.webhooks = cfg'.webhooks) :
    (validate net cfg = .ok () ↔ validate net cfg' = .ok ()) ∧
    (validate net cfg = .ok () → (hostnameList cfg.agents).Nodup ∧
      ∀ h ∈ hostnameList cfg.agents, ∃! e, e ∈ cfg.agents ∧ h ∈ agentHostnames e.2) ∧
    ∀ h, [h, h].Sublist (hostnameList cfg.agents) → validate net cfg ≠ .ok () := by
  refine ⟨?_, fun hok => ?_, fun h hh hok => ?_⟩
  · have hnil : cfg.agents ≠ [] ↔ cfg'.agents ≠ [] := by
      rw [Ne, Ne, ← List.length_eq_zero, hperm.length_eq, List.length_eq_zero]
    have hnodup : (hostnameList cfg.agents).Nodup ↔ (hostnameList cfg'.agents).Nodup :=
      (hperm.flatMap_right _).nodup_iff
    rw [validate_eq_ok_iff, validate_eq_ok_iff, hnil, hnodup, hwebhooks]
    simp only [hperm.mem_iff]
  · have hnd := ((validate_eq_ok_iff net cfg).1 hok).2.2.1
    refine ⟨hnd, fun h hh => ?_⟩
    obtain ⟨e, he, hhe⟩ := List.mem_flatMap.1 hh
    refine ⟨e, ⟨he, hhe⟩, fun e' ⟨he', hhe'⟩ => ?_⟩
    by_contra hne
    exact (List.nodup_flatMap.1 hnd).2.forall (fun _ _ h => h.symm) he' he hne hhe' hhe
  · exact List.nodup_iff_sublist.1 ((validate_eq_ok_iff net cfg).1 hok).2.2.1 h hh

theorem validate_verdict_swapped_agents :
    ([(ascii "a", ⟨ascii "a.test", [], ascii "http://a", ascii "unmanaged", [], [], 0⟩),
        (ascii "b", ⟨ascii "b.test", [], ascii "http://b", ascii "unmanaged", [], [], 0⟩)] :
        List (List UInt8 × Agent)).Perm
      [(ascii "b", ⟨ascii "b.test", [], ascii "http://b", ascii "unmanaged", [], [], 0⟩),
        (ascii "a", ⟨ascii "a.test", [], ascii "http://a", ascii "unmanaged", [], [], 0⟩)] ∧
    ([] : List WebhookConfig) = [] ∧
    (validate ⟨fun s => .ok ⟨ascii "http", s⟩, fun _ => none, fun _ => .error []⟩
        ⟨[(ascii "a", ⟨ascii "a.test", [], ascii "http://a", ascii "unmanaged", [], [], 0⟩),
          (ascii "b", ⟨ascii "b.test", [], ascii "http://b", ascii "unmanaged", [], [], 0⟩)],
          by decide, []⟩ = .ok () ↔
      validate ⟨fun s => .ok ⟨ascii "http", s⟩, fun _ => none, fun _ => .error []⟩
        ⟨[(ascii "b", ⟨ascii "b.test", [], ascii "http://b", ascii "unmanaged", [], [], 0⟩),
          (ascii "a", ⟨ascii "a.test", [], ascii "http://a", ascii "unmanaged", [], [], 0⟩)],
          by decide, []⟩ = .ok ()) :=
  ⟨.swap _ _ _, rfl, (validate_verdict_order_independent _ _ _ (.swap _ _ _) (by rfl)).1⟩

/-! ### Errors -/

/-- What an error of the agent loop says about the agent `name` it cites: the field or the
hostname its message names fails the check. -/
def ConfigError.About (net : Net) (name : List UInt8) (a : Agent) : ConfigError → Prop
  | .missingHostname n => n = name ∧ a.hostname = []
  | .missingBackend n => n = name ∧ a.backend = []
  | .invalidBackendURL n err => n = name ∧ net.parseURL a.backend = .error err
  | .missingPolicy n => n = name ∧ a.policy = []
  | .unknownPolicy n policy => n = name ∧ a.policy = policy ∧ policy ≠ [] ∧
      ¬(policy = ascii "always-on" ∨ policy = ascii "unmanaged" ∨ policy = ascii "on-demand")
  | .requiresContainerName n policy => n = name ∧ a.policy = policy ∧ a.containerName = []
  | .requiresHealthURL n policy => n = name ∧ a.policy = policy ∧ a.healthURL = []
  | .requiresIdleTimeout n => n = name ∧ a.policy = ascii "on-demand" ∧ a.idleTimeout ≤ 0
  | .invalidHostname n h err => n = name ∧ h ∈ agentHostnames a ∧ validateHostname h = .error err
  | .invalidHealthURL n err => n = name ∧ validateHealthURL net a.healthURL = .error err
  | _ => False

theorem checkPolicy_eq_error (name policy : List UInt8) (e : ConfigError)
    (h : checkPolicy name policy = .error e) :
    ¬(policy = ascii "always-on" ∨ policy = ascii "unmanaged" ∨ policy = ascii "on-demand") ∧
      (policy = [] ∧ e = .missingPolicy name ∨ policy ≠ [] ∧ e = .unknownPolicy name policy) := by
  unfold checkPolicy at h
  split_ifs at h with h1 h2 <;> cases h
  · exact ⟨h1, .inl ⟨h2, rfl⟩⟩
  · exact ⟨h1, .inr ⟨h2, rfl⟩⟩

theorem checkManaged_eq_error (name policy : List UInt8) (a : Agent) (e : ConfigError)
    (h : checkManaged name policy a = .error e) :
    a.containerName = [] ∧ e = .requiresContainerName name policy ∨
      a.healthURL = [] ∧ e = .requiresHealthURL name policy := by
  simp only [checkManaged, bind_eq_error_iff, failIf_eq_error_iff, failIf_eq_ok_iff] at h
  rcases h with ⟨h1, rfl⟩ | ⟨-, -, h2, rfl⟩
  · exact .inl ⟨h1, rfl⟩
  · exact .inr ⟨h2, rfl⟩

theorem checkAgent_eq_error (net : Net) (name : List UInt8) (a : Agent) (e : ConfigError)
    (h : checkAgent net name a = .error e) : e.About net name a := by
  simp only [checkAgent, bind_eq_error_iff, failIf_eq_error_iff, failIf_eq_ok_iff,
    mapError_eq_error_iff, ite_pure_eq_error_iff, ite_pure_eq_ok_iff] at h
  rcases h with ⟨h, rfl⟩ | ⟨-, -, ⟨h, rfl⟩ | ⟨-, -, ⟨err, h, rfl⟩ | ⟨-, -, h | ⟨-, -, h | ⟨-, -, h⟩⟩⟩⟩⟩
  · exact ⟨rfl, h⟩
  · exact ⟨rfl, h⟩
  · exact ⟨rfl, h⟩
  · obtain ⟨hk, ⟨hp, rfl⟩ | ⟨hp, rfl⟩⟩ := checkPolicy_eq_error _ _ _ h
    · exact ⟨rfl, hp⟩
    · exact ⟨rfl, rfl, hp, hk⟩
  all_goals obtain ⟨hp, h⟩ := h
  · rcases checkManaged_eq_error _ _ _ _ h with ⟨hc, rfl⟩ | ⟨hc, rfl⟩ <;> exact ⟨rfl, hp, hc⟩
  · rcases h with h | ⟨-, -, hi, rfl⟩
    · rcases checkManaged_eq_error _ _ _ _ h with ⟨hc, rfl⟩ | ⟨hc, rfl⟩ <;> exact ⟨rfl, hp, hc⟩
    · exact ⟨rfl, hp, hi⟩

theorem mem_of_lookup_eq_some {m : List (List UInt8 × List UInt8)} {h prev : List UInt8}
    (hl : m.lookup h = some prev) : (h, prev) ∈ m := by
  obtain ⟨l₁, l₂, rfl, -⟩ := List.lookup_eq_some_iff.1 hl
  exact List.mem_append_right _ (List.mem_cons_self _ _)

@[simp] theorem mem_claimed (name : List UInt8) (hs : List (List UInt8)) (h n : List UInt8) :
    (h, n) ∈ claimed name hs ↔ n = name ∧ h ∈ hs := by
  simp only [claimed, List.mem_reverse, List.mem_map, Prod.mk.injEq]
  exact ⟨fun ⟨_, hh, e1, e2⟩ => ⟨e2.symm, e1 ▸ hh⟩, fun ⟨e2, hh⟩ => ⟨h, hh, rfl, e2.symm⟩⟩

theorem registerHostname_eq_error (name : List UInt8) (m : List (List UInt8 × List UInt8))
    (h : List UInt8) (e : ConfigError) (he : registerHostname name m h = .error e) :
    h ≠ [] ∧ ((∃ err, validateHostname h = .error err ∧ e = .invalidHostname name h err) ∨
      ∃ prev, m.lookup h = some prev ∧ e = .duplicateHostname h prev name) := by
  unfold registerHostname at he
  split_ifs at he with h0
  rcases hv : validateHostname h with err | u <;> simp only [hv] at he
  · cases he
    exact ⟨h0, .inl ⟨err, rfl, rfl⟩⟩
  · rcases hl : m.lookup h with _ | prev <;> simp only [hl] at he
    · cases he
    · cases he
      exact ⟨h0, .inr ⟨prev, rfl, rfl⟩⟩

theorem foldlM_registerHostname_eq_error (name : List UInt8) (hs : List (List UInt8))
    {m : List (List UInt8 × List UInt8)} (hm : (m.map Prod.fst).Nodup) (e : ConfigError)
    (h : hs.foldlM (registerHostname name) m = .error e) :
    ∃ x ∈ hs.filter (· ≠ []), (∃ err, validateHostname x = .error err ∧
      e = .invalidHostname name x err) ∨ ∃ prev, e = .duplicateHostname x prev name ∧
        ((x, prev) ∈ m ∨ prev = name ∧ [x, x].Sublist (hs.filter (· ≠ []))) := by
  obtain ⟨pre, x, post, s, rfl, hpre, hx⟩ := foldlM_eq_error _ _ _ _ h
  obtain ⟨-, -, rfl⟩ := (foldlM_registerHostname_eq_ok_iff name pre hm s).1 hpre
  obtain ⟨hne, hcase⟩ := registerHostname_eq_error _ _ _ _ hx
  have hf : (pre ++ x :: post).filter (· ≠ []) =
      pre.filter (· ≠ []) ++ x :: post.filter (· ≠ []) := by
    rw [List.filter_append, List.filter_cons_of_pos (by simpa using hne)]
  have hmem : x ∈ (pre ++ x :: post).filter (· ≠ []) := by
    rw [hf]
    exact List.mem_append_right _ (List.mem_cons_self _ _)
  refine ⟨x, hmem, ?_⟩
  rcases hcase with hv | ⟨prev, hl, rfl⟩
  · exact .inl hv
  · refine .inr ⟨prev, rfl, ?_⟩
    rcases List.mem_append.1 (mem_of_lookup_eq_some hl) with hc | hin
    · obtain ⟨rfl, hxp⟩ := (mem_claimed _ _ _ _).1 hc
      refine .inr ⟨rfl, ?_⟩
      rw [hf]
      exact (List.singleton_sublist.2 hxp).append (List.singleton_sublist.2 (List.mem_cons_self _ _))
    · exact .inl hin

theorem validateAgent_eq_error (net : Net) {m : List (List UInt8 × List UInt8)}
    (hm : (m.map Prod.fst).Nodup) (name : List UInt8) (a : Agent) (e : ConfigError)
    (h : validateAgent net m name a = .error e) :
    e.About net name a ∨ ∃ x prev, e = .duplicateHostname x prev name ∧ x ∈ agentHostnames a ∧
      ((x, prev) ∈ m ∨ prev = name ∧ [x, x].Sublist (agentHostnames a)) := by
  simp only [validateAgent, bind_eq_error_iff, ite_pure_eq_error_iff, mapError_eq_error_iff] at h
  rcases h with h | ⟨-, -, h | ⟨m₁, -, ⟨-, err, h, rfl⟩ | ⟨-, -, h⟩⟩⟩
  · exact .inl (checkAgent_eq_error _ _ _ _ h)
  · obtain ⟨x, hx, ⟨err, hv, rfl⟩ | ⟨prev, rfl, hprev⟩⟩ :=
      foldlM_registerHostname_eq_error _ _ hm _ h
    · exact .inl ⟨rfl, hx, hv⟩
    · exact .inr ⟨x, prev, rfl, hx, hprev⟩
  · exact .inl ⟨rfl, h⟩
  · cases h

theorem mem_foldl_claimed (agents : List (List UInt8 × Agent))
    (m : List (List UInt8 × List UInt8)) (h n : List UInt8) :
    (h, n) ∈ agents.foldl (fun hostnames e => claimed e.1 (agentHostnames e.2) ++ hostnames) m ↔
      (h, n) ∈ m ∨ ∃ a, (n, a) ∈ agents ∧ h ∈ agentHostnames a := by
  induction agents generalizing m with
  | nil => simp
  | cons e es ih =>
    rw [List.foldl_cons, ih, List.mem_append, mem_claimed]
    constructor
    · rintro ((⟨rfl, hh⟩ | hm) | ⟨a, ha, hh⟩)
      · exact .inr ⟨e.2, List.mem_cons_self _ _, hh⟩
      · exact .inl hm
      · exact .inr ⟨a, List.mem_cons_of_mem _ ha, hh⟩
    · rintro (hm | ⟨a, ha | ⟨_, ha⟩, hh⟩)
      · exact .inl (.inr hm)
      · exact .inl (.inl ⟨rfl, hh⟩)
      · exact .inr ⟨a, ha, hh⟩

@[simp] theorem keys_foldl_claimed (agents : List (List UInt8 × Agent))
    (m : List (List UInt8 × List UInt8)) :
    (agents.foldl (fun hostnames e => claimed e.1 (agentHostnames e.2) ++ hostnames) m).map
      Prod.fst = (hostnameList agents).reverse ++ m.map Prod.fst := by
  induction agents generalizing m with
  | nil => simp
  | cons e es ih => simp [ih]

theorem agentHostnames_sublist {agents : List (List UInt8 × Agent)} {name : List UInt8}
    {a : Agent} (h : (name, a) ∈ agents) : (agentHostnames a).Sublist (hostnameList agents) :=
  List.sublist_flatten_of_mem (List.mem_map_of_mem (fun e => agentHostnames e.2) h)

theorem validateWebhooks_eq_error (net : Net) (k : Nat) (whs : List WebhookConfig)
    (e : ConfigError) (h : validateWebhooks net k whs = .error e) :
    ∃ i wh err, whs[i]? = some wh ∧ e = .invalidWebhookURL (k + i) wh.url err ∧
      validateWebhookURL net wh.url = .error err := by
  induction whs generalizing k with
  | nil => cases h
  | cons wh whs ih =>
    simp only [validateWebhooks, bind_eq_error_iff, mapError_eq_error_iff] at h
    rcases h with ⟨err, hv, rfl⟩ | ⟨-, -, h⟩
    · exact ⟨0, wh, err, List.getElem?_cons_zero, rfl, hv⟩
    · obtain ⟨i, wh', err, hi, rfl, hv⟩ := ih (k + 1) h
      exact ⟨i + 1, wh', err, by rwa [List.getElem?_cons_succ], by rw [Nat.add_right_comm, Nat.add_assoc], hv⟩

/-- What an error of `validate` says about the configuration: the agent, hostname or webhook
its message names is in the configuration and fails the check the message cites. -/
def ConfigError.Explains (net : Net) (cfg : Config) : ConfigError → Prop
  | .noAgents => cfg.agents = []
  | .duplicateHostname h prev name => ∃ a a', (prev, a) ∈ cfg.agents ∧ (name, a') ∈ cfg.agents ∧
      h ∈ agentHostnames a ∧ h ∈ agentHostnames a' ∧ [h, h].Sublist (hostnameList cfg.agents)
  | .invalidWebhookURL i url err => ∃ wh, cfg.webhooks[i]? = some wh ∧ wh.url = url ∧
      validateWebhookURL net url = .error err
  | e => ∃ name a, (name, a) ∈ cfg.agents ∧ e.About net name a

theorem ConfigError.About.explains {net : Net} {cfg : Config} {name : List UInt8} {a : Agent}
    {e : ConfigError} (h : e.About net name a) (hmem : (name, a) ∈ cfg.agents) :
    e.Explains net cfg := by
  cases e <;> first | exact ⟨name, a, hmem, h⟩ | exact h.elim

theorem validate_error_explains (net : Net) (cfg : Config) (e : ConfigError)
    (h : validate net cfg = .error e) : e.Explains net cfg := by
  simp only [validate, bind_eq_error_iff, failIf_eq_error_iff] at h
  rcases h with ⟨hnil, rfl⟩ | ⟨-, -, hfold | ⟨s, -, hwh⟩⟩
  · exact hnil
  · obtain ⟨pre, ⟨name, a⟩, post, s, hsplit, hpre, hx⟩ := foldlM_eq_error _ _ _ _ hfold
    obtain ⟨-, hnd, rfl⟩ := (@foldlM_validateAgent_eq_ok_iff net pre [] List.nodup_nil s).1 hpre
    have hmem : (name, a) ∈ cfg.agents := hsplit ▸ List.mem_append_right _ (List.mem_cons_self _ _)
    have hkeys : ((pre.foldl (fun hostnames e => claimed e.1 (agentHostnames e.2) ++ hostnames)
        []).map Prod.fst).Nodup := by
      simpa using hnd
    rcases validateAgent_eq_error net hkeys name a e hx with habout | ⟨x, prev, rfl, hxa, hprev⟩
    · exact habout.explains hmem
    · rcases hprev with hin | ⟨rfl, hsub⟩
      · obtain ⟨a₀, hmem₀, hx₀⟩ := ((mem_foldl_claimed _ _ _ _).1 hin).resolve_left
          (List.not_mem_nil _)
        refine ⟨a₀, a, hsplit ▸ List.mem_append_left _ hmem₀, hmem, hx₀, hxa, ?_⟩
        rw [hsplit, hostnameList, List.flatMap_append, List.flatMap_cons]
        exact (List.singleton_sublist.2 (List.mem_flatMap.2 ⟨_, hmem₀, hx₀⟩)).append
          ((List.singleton_sublist.2 hxa).trans (List.sublist_append_left _ _))
      · exact ⟨a, a, hmem, hmem, hxa, hxa, hsub.trans (agentHostnames_sublist hmem)⟩
  · obtain ⟨i, wh, err, hi, rfl, hv⟩ := validateWebhooks_eq_error net 0 _ e hwh
    exact ⟨wh, by simpa using hi, rfl, hv⟩

theorem validate_error_explains_duplicate :
    validate ⟨fun s => .ok ⟨ascii "http", s⟩, fun _ => none, fun _ => .error []⟩
        ⟨[(ascii "a", ⟨ascii "x.test", [ascii "x.test"], ascii "http://a", ascii "unmanaged", [],
          [], 0⟩)], by decide, []⟩ =
      .error (.duplicateHostname (ascii "x.test") (ascii "a") (ascii "a")) ∧
    (ConfigError.duplicateHostname (ascii "x.test") (ascii "a") (ascii "a")).Explains
      ⟨fun s => .ok ⟨ascii "http", s⟩, fun _ => none, fun _ => .error []⟩
      ⟨[(ascii "a", ⟨ascii "x.test", [ascii "x.test"], ascii "http://a", ascii "unmanaged", [],
        [], 0⟩)], by decide, []⟩ :=
  ⟨rfl, validate_error_explains _ _ _ rfl⟩

end Warren.Config
