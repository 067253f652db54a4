import RustDbDriver.AzureToken
import RustDbDriver.Row

/-!
# Credentials

The constructors of `AzureTokenProvider` and the chain that `default_credential` builds. `C` is a credential
of the identity library; `AzureIdentity` are its constructors, and an `Answer` is what a credential makes of a
request for a token.
-/

namespace RustDbDriver

def DB_SCOPE : String := "https://database.windows.net/.default"

structure AzureIdentity (C : Type) where
  workloadIdentity : Except String C
  managedIdentity : Option String → Except String C
  developerTools : Except String C
  clientSecret : (tenantId clientId clientSecret : String) → Except String C

abbrev Answer := Except String AccessToken

inductive TokenCredential (C : Type) where
  | source (c : C)
  | chained (sources : List C)

structure AzureTokenProvider (C : Type) where
  credential : TokenCredential C
  scope : String

variable {C : Type}

/-! ### The chain -/

namespace ChainedCredential

/-- The loop of `get_token`, with the sources it asks. -/
def ask (answer : C → Answer) : Option String → List C → Answer × List C
  | lastErr, [] => (.error (lastErr.getD "no credentials available in chain"), [])
  | _, src :: sources =>
    match answer src with
    | .ok token => (.ok token, [src])
    | .error e =>
      let (result, asked) := ask answer (some e) sources
      (result, src :: asked)

def getToken (answer : C → Answer) (sources : List C) : Answer × List C := ask answer none sources

variable {answer : C → Answer} {lastErr : Option String} {src : C} {sources : List C}

theorem ask_of_ok {token : AccessToken} (h : answer src = .ok token) :
    ask answer lastErr (src :: sources) = (answer src, [src]) := by
  simp only [ask, h]

theorem ask_of_error {e : String} (h : answer src = .error e) :
    ask answer lastErr (src :: sources) =
      ((ask answer (some e) sources).1, src :: (ask answer (some e) sources).2) := by
  simp only [ask, h]

/-- The answer is that of the last source asked. The sources in front of it failed, and those behind it are
left out only if it did not. -/
theorem ask_split (answer : C → Answer) (lastErr : Option String) (hne : sources ≠ []) :
    ∃ (front : List C) (src : C) (rest : List C), sources = front ++ src :: rest ∧
      (∀ c ∈ front, ∃ e, answer c = .error e) ∧
      ask answer lastErr sources = (answer src, front ++ [src]) ∧
      ((∃ e, answer src = .error e) → rest = []) := by
  induction sources generalizing lastErr with
  | nil => exact absurd rfl hne
  | cons src sources ih =>
    cases hsrc : answer src with
    | ok token =>
      refine ⟨[], src, sources, rfl, nofun, ask_of_ok hsrc, ?_⟩
      rintro ⟨e, he⟩
      rw [hsrc] at he
      cases he
    | error e =>
      by_cases hnil : sources = []
      · refine ⟨[], src, [], by rw [hnil]; rfl, nofun, ?_, fun _ => rfl⟩
        rw [ask_of_error hsrc, hsrc, hnil]
        rfl
      · obtain ⟨front, src', rest, hsplit, hfront, hask, hrest⟩ := ih (some e) hnil
        refine ⟨src :: front, src', rest, ?_, ?_, ?_, hrest⟩
        · rw [hsplit, List.cons_append]
        · exact List.forall_mem_cons.mpr ⟨⟨e, hsrc⟩, hfront⟩
        · rw [ask_of_error hsrc, hask, List.cons_append]

end ChainedCredential

/-! ### Providers -/

namespace AzureTokenProvider

def defaultCredential (azure : AzureIdentity C) (scope : String) : Except DbError (AzureTokenProvider C) :=
  let sources := [azure.workloadIdentity, azure.managedIdentity none, azure.developerTools].filterMap
    Except.toOption
  if sources.isEmpty then
    .error (.auth "no Azure credentials available (workload identity, MSI or Azure CLI not configured)")
  else .ok ⟨.chained sources, scope⟩

def clientSecret (azure : AzureIdentity C) (tenantId clientId clientSecret scope : String) :
    Except DbError (AzureTokenProvider C) :=
  ((azure.clientSecret tenantId clientId clientSecret).mapError .auth).map fun c => ⟨.source c, scope⟩

def managedIdentity (azure : AzureIdentity C) (clientId : Option String) (scope : String) :
    Except DbError (AzureTokenProvider C) :=
  ((azure.managedIdentity clientId).mapError .auth).map fun c => ⟨.source c, scope⟩

/-- What the credential answers, and the sources that are asked for it. -/
def request (answer : C → Answer) (p : AzureTokenProvider C) : Answer × List C :=
  match p.credential with
  | .source c => (answer c, [c])
  | .chained sources => ChainedCredential.getToken answer sources

/-- The default credential is there as soon as one of its sources is. A request for a token then asks the
sources in their order up to the first that has one, and fails with the error of the last one if none has. -/
theorem defaultCredential_request (azure : AzureIdentity C) (scope : String) (answer : C → Answer) :
    (defaultCredential azure scope = .error (.auth
        "no Azure credentials available (workload identity, MSI or Azure CLI not configured)") ∧
      ∀ c, azure.workloadIdentity ≠ .ok c ∧ azure.managedIdentity none ≠ .ok c ∧ azure.developerTools ≠ .ok c) ∨
    ∃ (front : List C) (src : C) (rest : List C) (p : AzureTokenProvider C),
      defaultCredential azure scope = .ok p ∧ p.scope = scope ∧
      [azure.workloadIdentity, azure.managedIdentity none, azure.developerTools].filterMap Except.toOption =
        front ++ src :: rest ∧
      (∀ c ∈ front, ∃ e, answer c = .error e) ∧
      p.request answer = (answer src, front ++ [src]) ∧
      ((∃ e, answer src = .error e) → rest = []) := by
  unfold defaultCredential
  dsimp only
  generalize hsources : [azure.workloadIdentity, azure.managedIdentity none, azure.developerTools].filterMap
    Except.toOption = sources
  cases hempty : sources.isEmpty with
  | true =>
    refine .inl ⟨rfl, ?_⟩
    rw [List.isEmpty_iff.mp hempty, List.filterMap_eq_nil_iff] at hsources
    have hnone {x : Except String C} (hx : x.toOption = none) (c : C) : x ≠ .ok c := by
      rintro rfl
      cases hx
    intro c
    exact ⟨hnone (hsources _ (by simp)) c, hnone (hsources _ (by simp)) c, hnone (hsources _ (by simp)) c⟩
  | false =>
    have hne : sources ≠ [] := by
      rintro rfl
      cases hempty
    obtain ⟨front, src, rest, hsplit, hfront, hask, hrest⟩ :=
      ChainedCredential.ask_split answer none hne
    exact .inr ⟨front, src, rest, _, rfl, rfl, hsplit, hfront, hask, hrest⟩

end AzureTokenProvider

end RustDbDriver
