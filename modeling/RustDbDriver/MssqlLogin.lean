import RustDbDriver.Mssql

/-!
# Logging in with tokens

A driver that logs in with Azure tokens opens its connections by `new_client`, and each of these calls waits for a
call of `get_token`. The calls share a cache, and their steps come in any order. `newClient_loggedIn` follows a
connection back to the answer of the credential that its token came with.
-/

namespace RustDbDriver
open Lib

namespace Provider

variable {now₀ : Int} {es : List TokenEvent} {p q : Provider} {c : Nat}

/-- A call that has failed was told so by the credential. -/
def ErrorsTold (es : List TokenEvent) (p : Provider) : Prop :=
  ∀ c e, p.call c = .returned (.error e) → ∃ text, .respond c (.error text) ∈ es ∧ e = .auth text

theorem ErrorsTold.setCall {event : TokenEvent} {call : GetToken} (h : ErrorsTold es p)
    (hcall : ∀ e, call = .returned (.error e) → ∃ text, event = .respond c (.error text) ∧ e = .auth text) :
    ErrorsTold (es ++ [event]) (p.setCall c call) := by
  intro d e hd
  rw [setCall_call] at hd
  split at hd
  · next hdc =>
    obtain ⟨text, rfl, rfl⟩ := hcall e hd
    exact ⟨text, by simp [hdc], rfl⟩
  · obtain ⟨text, hmem, rfl⟩ := h d e hd
    exact ⟨text, List.mem_append_left _ hmem, rfl⟩

theorem ErrorsTold.step {event : TokenEvent} (h : ErrorsTold es p) (hstep : p.step event = some q) :
    ErrorsTold (es ++ [event]) q := by
  cases stepped_of_step hstep with
  | tick hle =>
    intro d e hd
    obtain ⟨text, hmem, rfl⟩ := h d e hd
    exact ⟨text, List.mem_append_left _ hmem, rfl⟩
  | failed hcall =>
    refine h.setCall ?_
    rintro e ⟨⟩
    exact ⟨_, rfl, rfl⟩
  | hit hcall hcache hvalid => exact h.setCall nofun
  | @miss c hcall hcheck =>
    show ErrorsTold _ (p.setCall c .fetching)
    exact h.setCall nofun
  | fetched hcall hexpires => exact h.setCall nofun
  | panicked hcall hexpires => exact h.setCall nofun
  | @written c fresh hcall =>
    show ErrorsTold _ (p.setCall c (.returned (.ok fresh.token)))
    exact h.setCall nofun

theorem errorsTold_of_run (h : run step (new now₀) es = some p) : ErrorsTold es p :=
  run_history ErrorsTold (fun _ _ hcall => by cases hcall) (fun _ _ _ _ _ _ _ hstep _ hp => hp.step hstep) h

/-- What a call has returned was issued to it, or to the call that wrote it to the cache. -/
theorem issued_of_returned {token : String} (h : run step (new now₀) es = some p)
    (hcall : p.call c = .returned (.ok token)) :
    ∃ d cached, IssuedTo now₀ es d cached ∧ cached.token = token ∧ (d = c ∨ ReadValid now₀ es c token) := by
  rcases (provenance_of_run h).returned c token hcall with ⟨fresh, hissued, htoken⟩ | hread
  · exact ⟨c, fresh, hissued, htoken, .inl rfl⟩
  · obtain ⟨pre, post, p₀, cached, rfl, hpre, hcache, htoken, -⟩ := id hread
    obtain ⟨d, hissued⟩ := (provenance_of_run hpre).cache cached hcache
    exact ⟨d, cached, hissued.append _, htoken, .inr hread⟩

end Provider

namespace MssqlDriver

variable {C : Type}

/-- In every run of the calls of `get_token`: `new_client`, once its call has returned, fails with what the
credential told this call, or it opens a connection to the database of the configuration by logging in with a
token that the credential issued, to this call or to an earlier one; in the latter case the call found it in the
cache with more than 60 seconds to live. -/
theorem newClient_loggedIn (azureAuth : Bool) (azure : AzureIdentity C) (build : Nat → Except String Unit)
    (config : DatabaseConfig) (mssql : MssqlDriver C) (h : connect azureAuth azure build config = .ok mssql)
    (htokens : UsesTokens config.auth) (now₀ : Int) (es : List TokenEvent) (p : Provider)
    (hrun : run Provider.step (.new now₀) es = some p) (c : Nat) (result : Except DbError String)
    (hcall : p.call c = .returned result) (net : Net) :
    (∃ text, .respond c (.error text) ∈ es ∧
      mssql.manager.newClient (fun _ => result) net = .error (.auth text)) ∨
    ∃ token d cached,
      mssql.manager.newClient (fun _ => result) net =
        net.connect s!"{config.host}:{config.port}" (mssql.manager.tiberiusConfig (.aadToken token)) ∧
      Provider.IssuedTo now₀ es d cached ∧ cached.token = token ∧
      (d = c ∨ Provider.ReadValid now₀ es c token) := by
  obtain ⟨provider, hauth⟩ := authMethod_of_usesTokens h htokens
  obtain ⟨-, hconfig, -⟩ := connect_eq_ok h
  rw [MssqlManager.newClient, hauth, hconfig]
  cases result with
  | error e =>
    obtain ⟨text, hmem, rfl⟩ := Provider.errorsTold_of_run hrun c e hcall
    exact .inl ⟨text, hmem, rfl⟩
  | ok token =>
    obtain ⟨d, cached, hissued, htoken, hfrom⟩ := Provider.issued_of_returned hrun hcall
    exact .inr ⟨token, d, cached, rfl, hissued, htoken, hfrom⟩

/-- A host with a managed identity. -/
def oneIdentity : AzureIdentity Unit := ⟨.error "", fun _ => .ok (), .error "", fun _ _ _ => .error ""⟩

def aadConfig : DatabaseConfig := { bareConfig "db" 1433 with auth := .azureManagedIdentity none }

def aadDriver : MssqlDriver Unit := ⟨⟨aadConfig, some ⟨.source (), DB_SCOPE⟩⟩, 1⟩

/-- The second connection is opened with the token of the first. -/
theorem newClient_loggedIn_second :
    (∃ text, .respond 1 (.error text) ∈ Provider.oneAfterOther ∧
      aadDriver.manager.newClient (fun _ => .ok "first") openNet = .error (.auth text)) ∨
    ∃ token d cached,
      aadDriver.manager.newClient (fun _ => .ok "first") openNet =
        openNet.connect s!"{aadConfig.host}:{aadConfig.port}" (aadDriver.manager.tiberiusConfig (.aadToken token)) ∧
      Provider.IssuedTo 0 Provider.oneAfterOther d cached ∧ cached.token = token ∧
      (d = 1 ∨ Provider.ReadValid 0 Provider.oneAfterOther 1 token) :=
  newClient_loggedIn true oneIdentity (fun _ => .ok ()) aadConfig aadDriver rfl trivial 0 Provider.oneAfterOther _
    rfl 1 _ rfl openNet

end MssqlDriver
end RustDbDriver
