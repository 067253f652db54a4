import RustDbDriver.Lib.Runs
import RustDbDriver.Row

/-!
# The token cache of `AzureTokenProvider`

Any number of `get_token` calls share one provider. A call checks the cache under the read lock, asks the
credential if it found no valid token, works out the expiry of the answer, and writes the cache under the
write lock; other calls and the clock go on between these steps (`Provider.step`). The cache always holds
what one answer said, and a call returns the token of its own answer or one that the check found valid
(`getToken_history`).

That there is one answer for all calls takes more: `oneToken_iff` says it is so exactly if no call checks
the cache between the first check and the first write.
-/

namespace RustDbDriver
open Lib

/-! ### The clock

A `SystemTime` is the number of nanoseconds since `UNIX_EPOCH`. -/

namespace SystemTime

def UNIX_EPOCH : Int := 0

/-- The last instant that a signed 64-bit count of seconds can express. -/
def MAX : Int := (2 ^ 63 - 1) * 1000000000 + 999999999

/-- `checked_add` of whole seconds; `+` panics where it answers `none`. -/
def checkedAdd (t : Int) (secs : Nat) : Option Int :=
  if t + secs * 1000000000 ≤ MAX then some (t + secs * 1000000000) else none

end SystemTime

/-! ### Tokens -/

def TOKEN_REFRESH_BUFFER_SECS : Nat := 60

structure CachedToken where
  token : String
  expiresAt : Int
deriving DecidableEq, Repr

def CachedToken.isValid (cached : CachedToken) (now : Int) : Bool :=
  match SystemTime.checkedAdd now TOKEN_REFRESH_BUFFER_SECS with
  | some t => decide (t < cached.expiresAt)
  | none => false

/-- What a credential answers: the token, and the Unix time it expires on. -/
structure AccessToken where
  token : String
  expiresOn : Int64
deriving DecidableEq, Repr

/-- The expiry that is cached with an answer processed at `now`; `none` is a panic. -/
def AccessToken.expiresAt (access : AccessToken) (now : Int) : Option Int :=
  let secs := access.expiresOn
  if 0 < secs then SystemTime.checkedAdd SystemTime.UNIX_EPOCH secs.toInt.toNat
  else SystemTime.checkedAdd now 3600

section Tokens

variable {cached : CachedToken} {access : AccessToken} {now now' expiresAt : Int}

/-- A token is valid if it lives for more than the buffer, and the clock can express that. -/
theorem CachedToken.isValid_iff : cached.isValid now = true ↔
    now + 60 * 1000000000 ≤ SystemTime.MAX ∧ now + 60 * 1000000000 < cached.expiresAt := by
  unfold isValid SystemTime.checkedAdd TOKEN_REFRESH_BUFFER_SECS
  by_cases h : now + (60 : Nat) * 1000000000 ≤ SystemTime.MAX
  · rw [if_pos h]
    simp only [decide_eq_true_eq]
    exact ⟨fun hlt => ⟨h, hlt⟩, fun hlt => hlt.2⟩
  · rw [if_neg h]
    exact ⟨fun hf => absurd hf Bool.false_ne_true, fun hlt => absurd hlt.1 h⟩

/-- What is valid at a time was valid before. -/
theorem CachedToken.isValid_mono (hle : now ≤ now') (h : cached.isValid now' = true) :
    cached.isValid now = true := by
  rw [isValid_iff] at h ⊢
  omega

theorem AccessToken.expiresAt_eq (h : access.expiresAt now = some expiresAt) :
    expiresAt = if 0 < access.expiresOn then access.expiresOn.toInt * 1000000000
      else now + 3600 * 1000000000 := by
  unfold AccessToken.expiresAt SystemTime.checkedAdd SystemTime.UNIX_EPOCH at h
  dsimp only at h
  by_cases hsecs : 0 < access.expiresOn
  · have hpos : 0 < access.expiresOn.toInt := Int64.lt_iff_toInt_lt.mp hsecs
    rw [if_pos hsecs] at h ⊢
    split at h
    · cases h
      omega
    · cases h
  · rw [if_neg hsecs] at h ⊢
    split at h
    · cases h
      rfl
    · cases h

end Tokens

/-! ### Calls -/

/-- Where a call of `get_token` stands. -/
inductive GetToken where
  /-- In front of the cache check. -/
  | start
  /-- In `refresh_token`, waiting for the credential. -/
  | fetching
  /-- In `refresh_token`, waiting for the write lock. -/
  | writing (fresh : CachedToken)
  | returned (result : Except DbError String)
  | panicked

inductive TokenEvent where
  /-- The clock shows a later time. -/
  | tick (now : Int)
  /-- Call `c` checks the cache under the read lock. -/
  | check (c : Nat)
  /-- The credential answers call `c`, which processes the answer. -/
  | respond (c : Nat) (response : Except String AccessToken)
  /-- Call `c` writes the cache under the write lock. -/
  | write (c : Nat)

structure Provider where
  now : Int
  cache : Option CachedToken
  call : Nat → GetToken
  /-- The calls that asked the credential, in the order they asked. -/
  asked : List Nat

namespace Provider

/-- A new provider: an empty cache, and no call that has started. -/
def new (now : Int) : Provider := ⟨now, none, fun _ => .start, []⟩

def setCall (p : Provider) (c : Nat) (call : GetToken) : Provider :=
  { p with call := Function.update p.call c call }

/-- The block of `get_token` under the read lock: the cached token, if it is valid. -/
def checkCache (p : Provider) : Option String :=
  match p.cache with
  | some cached => if cached.isValid p.now then some cached.token else none
  | none => none

def step (p : Provider) : TokenEvent → Option Provider
  | .tick now => if p.now ≤ now then some { p with now := now } else none
  | .check c =>
    match p.call c with
    | .start =>
      match p.checkCache with
      | some token => some (p.setCall c (.returned (.ok token)))
      | none => some { p.setCall c .fetching with asked := p.asked ++ [c] }
    | _ => none
  | .respond c response =>
    match p.call c with
    | .fetching =>
      match response with
      | .error e => some (p.setCall c (.returned (.error (.auth e))))
      | .ok access =>
        match access.expiresAt p.now with
        | some expiresAt => some (p.setCall c (.writing ⟨access.token, expiresAt⟩))
        | none => some (p.setCall c .panicked)
    | _ => none
  | .write c =>
    match p.call c with
    | .writing fresh => some { p.setCall c (.returned (.ok fresh.token)) with cache := some fresh }
    | _ => none

@[simp] theorem setCall_now (p : Provider) (c : Nat) (call : GetToken) : (p.setCall c call).now = p.now := rfl

@[simp] theorem setCall_cache (p : Provider) (c : Nat) (call : GetToken) :
    (p.setCall c call).cache = p.cache := rfl

@[simp] theorem setCall_asked (p : Provider) (c : Nat) (call : GetToken) :
    (p.setCall c call).asked = p.asked := rfl

theorem setCall_call (p : Provider) (c : Nat) (call : GetToken) (d : Nat) :
    (p.setCall c call).call d = if d = c then call else p.call d :=
  Function.update_apply p.call c call d

/-- What an event does to a provider. -/
inductive Stepped (p : Provider) : TokenEvent → Provider → Prop where
  | tick {now : Int} : p.now ≤ now → Stepped p (.tick now) { p with now := now }
  | hit {c : Nat} {cached : CachedToken} : p.call c = .start → p.cache = some cached →
      cached.isValid p.now = true → Stepped p (.check c) (p.setCall c (.returned (.ok cached.token)))
  | miss {c : Nat} : p.call c = .start → p.checkCache = none →
      Stepped p (.check c) { p.setCall c .fetching with asked := p.asked ++ [c] }
  | failed {c : Nat} {e : String} : p.call c = .fetching →
      Stepped p (.respond c (.error e)) (p.setCall c (.returned (.error (.auth e))))
  | fetched {c : Nat} {access : AccessToken} {expiresAt : Int} : p.call c = .fetching →
      access.expiresAt p.now = some expiresAt →
      Stepped p (.respond c (.ok access)) (p.setCall c (.writing ⟨access.token, expiresAt⟩))
  | panicked {c : Nat} {access : AccessToken} : p.call c = .fetching → access.expiresAt p.now = none →
      Stepped p (.respond c (.ok access)) (p.setCall c .panicked)
  | written {c : Nat} {fresh : CachedToken} : p.call c = .writing fresh →
      Stepped p (.write c) { p.setCall c (.returned (.ok fresh.token)) with cache := some fresh }

variable {p q : Provider} {e : TokenEvent}

theorem checkCache_of_isValid {cached : CachedToken} (h : p.cache = some cached)
    (hvalid : cached.isValid p.now = true) : p.checkCache = some cached.token := by
  rw [checkCache, h]
  exact if_pos hvalid

theorem checkCache_eq_some {token : String} (h : p.checkCache = some token) :
    ∃ cached, p.cache = some cached ∧ cached.isValid p.now = true ∧ token = cached.token := by
  unfold checkCache at h
  split at h
  · next cached hcache =>
    split at h
    · next hvalid =>
      cases h
      exact ⟨cached, hcache, hvalid, rfl⟩
    · cases h
  · cases h

theorem stepped_of_step (h : p.step e = some q) : p.Stepped e q := by
  cases e with
  | tick now =>
    simp only [step] at h
    split at h
    · next hle =>
      cases h
      exact .tick hle
    · cases h
  | check c =>
    simp only [step] at h
    split at h
    · next hcall =>
      split at h
      · next token hcheck =>
        obtain ⟨cached, hcache, hvalid, rfl⟩ := checkCache_eq_some hcheck
        cases h
        exact .hit hcall hcache hvalid
      · next hcheck =>
        cases h
        exact .miss hcall hcheck
    · cases h
  | respond c response =>
    simp only [step] at h
    split at h
    · next hcall =>
      cases response with
      | error e =>
        cases h
        exact .failed hcall
      | ok access =>
        simp only at h
        split at h
        · next hexpires =>
          cases h
          exact .fetched hcall hexpires
        · next hexpires =>
          cases h
          exact .panicked hcall hexpires
    · cases h
  | write c =>
    simp only [step] at h
    split at h
    · next hcall =>
      cases h
      exact .written hcall
    · cases h

/-- The clock never goes back. -/
theorem now_le_of_step (h : p.step e = some q) : p.now ≤ q.now := by
  cases stepped_of_step h with
  | tick hle => exact hle
  | _ => exact le_rfl

theorem now_le_of_run {es : List TokenEvent} (h : run step p es = some q) : p.now ≤ q.now :=
  run_invariant (fun r => p.now ≤ r.now) (fun _ _ _ hr hstep => hr.trans (now_le_of_step hstep)) le_rfl h

/-! ### Where tokens come from -/

section History

variable (now₀ : Int)

/-- Call `c` got an answer with this token, and this is the expiry of that answer. -/
def IssuedTo (es : List TokenEvent) (c : Nat) (cached : CachedToken) : Prop :=
  ∃ pre access post p₀, es = pre ++ .respond c (.ok access) :: post ∧ run step (new now₀) pre = some p₀ ∧
    cached.token = access.token ∧
    cached.expiresAt = if 0 < access.expiresOn then access.expiresOn.toInt * 1000000000
      else p₀.now + 3600 * 1000000000

/-- Call `c` found this token in the cache, with more than 60 seconds to live. -/
def ReadValid (es : List TokenEvent) (c : Nat) (token : String) : Prop :=
  ∃ pre post p₀ cached, es = pre ++ .check c :: post ∧ run step (new now₀) pre = some p₀ ∧
    p₀.cache = some cached ∧ cached.token = token ∧ p₀.now + 60 * 1000000000 < cached.expiresAt

variable {now₀} {es : List TokenEvent} {c : Nat} {cached : CachedToken} {token : String}

theorem IssuedTo.append (h : IssuedTo now₀ es c cached) (es' : List TokenEvent) :
    IssuedTo now₀ (es ++ es') c cached := by
  obtain ⟨pre, access, post, p₀, rfl, hrun, htoken, hexpires⟩ := h
  exact ⟨pre, access, post ++ es', p₀, by simp, hrun, htoken, hexpires⟩

theorem ReadValid.append (h : ReadValid now₀ es c token) (es' : List TokenEvent) :
    ReadValid now₀ (es ++ es') c token := by
  obtain ⟨pre, post, p₀, cached, rfl, hrun, hcache, htoken, hlive⟩ := h
  exact ⟨pre, post ++ es', p₀, cached, by simp, hrun, hcache, htoken, hlive⟩

/-- Where everything that a provider holds and has returned comes from. -/
structure Provenance (now₀ : Int) (es : List TokenEvent) (p : Provider) : Prop where
  cache : ∀ cached, p.cache = some cached → ∃ c, IssuedTo now₀ es c cached
  writing : ∀ c fresh, p.call c = .writing fresh → IssuedTo now₀ es c fresh
  returned : ∀ c token, p.call c = .returned (.ok token) →
    (∃ fresh, IssuedTo now₀ es c fresh ∧ fresh.token = token) ∨ ReadValid now₀ es c token

theorem Provenance.start : Provenance now₀ [] (new now₀) where
  cache _ h := nomatch h
  writing _ _ h := nomatch h
  returned _ _ h := nomatch h

theorem Provenance.append (h : Provenance now₀ es p) (es' : List TokenEvent) :
    Provenance now₀ (es ++ es') p := by
  constructor
  · intro cached hcached
    obtain ⟨c, hissued⟩ := h.cache cached hcached
    exact ⟨c, hissued.append es'⟩
  · intro c fresh hcall
    exact (h.writing c fresh hcall).append es'
  · intro c token hcall
    rcases h.returned c token hcall with ⟨fresh, hissued, htoken⟩ | hread
    · exact .inl ⟨fresh, hissued.append es', htoken⟩
    · exact .inr (hread.append es')

/-- One call moves on. -/
theorem Provenance.setCall {call : GetToken} (h : Provenance now₀ es p)
    (hwriting : ∀ fresh, call = .writing fresh → IssuedTo now₀ es c fresh)
    (hreturned : ∀ token, call = .returned (.ok token) →
      (∃ fresh, IssuedTo now₀ es c fresh ∧ fresh.token = token) ∨ ReadValid now₀ es c token) :
    Provenance now₀ es (p.setCall c call) := by
  constructor
  · exact h.cache
  · intro d fresh hd
    rw [setCall_call] at hd
    split at hd
    · next heq =>
      rw [heq]
      exact hwriting fresh hd
    · exact h.writing d fresh hd
  · intro d token hd
    rw [setCall_call] at hd
    split at hd
    · next heq =>
      rw [heq]
      exact hreturned token hd
    · exact h.returned d token hd

theorem Provenance.step (h : Provenance now₀ es p) (hrun : run step (new now₀) es = some p)
    (hstep : p.step e = some q) : Provenance now₀ (es ++ [e]) q := by
  have h' := h.append [e]
  cases stepped_of_step hstep with
  | tick hle => exact ⟨h'.cache, h'.writing, h'.returned⟩
  | hit hcall hsome hvalid =>
    refine h'.setCall nofun ?_
    rintro token ⟨⟩
    exact .inr ⟨es, [], p, _, rfl, hrun, hsome, rfl, (CachedToken.isValid_iff.mp hvalid).2⟩
  | @miss c hcall hcheck =>
    have hmiss : Provenance now₀ (es ++ [.check c]) (p.setCall c .fetching) := h'.setCall nofun nofun
    exact ⟨hmiss.cache, hmiss.writing, hmiss.returned⟩
  | failed hcall => exact h'.setCall nofun nofun
  | fetched hcall hexpires =>
    refine h'.setCall ?_ nofun
    rintro fresh ⟨⟩
    exact ⟨es, _, [], p, rfl, hrun, rfl, AccessToken.expiresAt_eq hexpires⟩
  | panicked hcall hexpires => exact h'.setCall nofun nofun
  | @written c fresh hcall =>
    have hissued := h'.writing c fresh hcall
    have hwritten : Provenance now₀ (es ++ [.write c]) (p.setCall c (.returned (.ok fresh.token))) := by
      refine h'.setCall nofun ?_
      rintro token ⟨⟩
      exact .inl ⟨fresh, hissued, rfl⟩
    refine ⟨?_, hwritten.writing, hwritten.returned⟩
    rintro cached ⟨⟩
    exact ⟨c, hissued⟩

theorem provenance_of_run (h : run step (new now₀) es = some p) : Provenance now₀ es p :=
  run_history (Provenance now₀) .start
    (fun _ _ _ _ _ _ hrun hstep _ hp => hp.step hrun hstep) h

/-- In every run of concurrent calls: the cache holds what one answer said, a failed fetch leaves the
cache as it was, and a returned token was issued to the call or read from the cache with more than 60
seconds to live. -/
theorem getToken_history (now₀ : Int) (es : List TokenEvent) (p : Provider)
    (h : run step (new now₀) es = some p) :
    (∀ cached, p.cache = some cached → ∃ c, IssuedTo now₀ es c cached) ∧
    (∀ pre c e post, es = pre ++ .respond c (.error e) :: post →
      ∃ q q', run step (new now₀) pre = some q ∧ q.step (.respond c (.error e)) = some q' ∧
        q'.cache = q.cache) ∧
    ∀ c token, p.call c = .returned (.ok token) →
      (∃ fresh, IssuedTo now₀ es c fresh ∧ fresh.token = token) ∨ ReadValid now₀ es c token := by
  have hp := provenance_of_run h
  refine ⟨hp.cache, ?_, hp.returned⟩
  rintro pre c e post rfl
  obtain ⟨q, q', hpre, hstep, -⟩ := run_split h
  refine ⟨q, q', hpre, hstep, ?_⟩
  cases stepped_of_step hstep
  rfl

/-- One call fetches a token, and a later one finds it in the cache. -/
def oneAfterOther : List TokenEvent :=
  [.check 0, .respond 0 (.ok ⟨"first", 7200⟩), .write 0, .tick 1000000000, .check 1]

theorem getToken_history_oneAfterOther :
    ∃ p, run step (new 0) oneAfterOther = some p ∧ p.call 1 = .returned (.ok "first") ∧
      (∀ cached, p.cache = some cached → ∃ c, IssuedTo 0 oneAfterOther c cached) ∧
      (∀ pre c e post, oneAfterOther = pre ++ .respond c (.error e) :: post →
        ∃ q q', run step (new 0) pre = some q ∧ q.step (.respond c (.error e)) = some q' ∧
          q'.cache = q.cache) ∧
      ∀ c token, p.call c = .returned (.ok token) →
        (∃ fresh, IssuedTo 0 oneAfterOther c fresh ∧ fresh.token = token) ∨
          ReadValid 0 oneAfterOther c token :=
  ⟨_, rfl, rfl, getToken_history 0 oneAfterOther _ rfl⟩

end History

/-! ### One token for all calls -/

/-- The credential was asked at most once, and whatever returned did so with the cached token. -/
def OneToken (p : Provider) : Prop :=
  p.asked.length ≤ 1 ∧
    ∀ c result, p.call c = .returned result → ∃ cached, p.cache = some cached ∧ result = .ok cached.token

/-- Every check but the first comes after a write. -/
def ChecksAfterWrite (es : List TokenEvent) : Prop :=
  ∀ pre c post, es = pre ++ .check c :: post → (∀ d, .check d ∉ pre) ∨ ∃ d, .write d ∈ pre

/-- No answer is a failure, and every token answered is valid until the end of the run. -/
structure GoodAnswers (now₀ : Int) (es : List TokenEvent) (p : Provider) : Prop where
  ok : ∀ c e, .respond c (.error e) ∉ es
  live : ∀ pre c access post q, es = pre ++ .respond c (.ok access) :: post →
    run step (new now₀) pre = some q →
    ∃ expiresAt, access.expiresAt q.now = some expiresAt ∧
      CachedToken.isValid ⟨access.token, expiresAt⟩ p.now = true

/-- The stages of a run with one token: before the first check, while its call fetches and writes, and
from the write on. -/
inductive Stage (last : Int) (es : List TokenEvent) (p : Provider) : Prop where
  | quiet : (∀ c, .check c ∉ es) → (∀ c, .write c ∉ es) → p.cache = none → p.asked = [] →
      (∀ c, p.call c = .start) → Stage last es p
  | busy {c : Nat} : (∃ d, .check d ∈ es) → (∀ d, .write d ∉ es) → p.cache = none → p.asked = [c] →
      (p.call c = .fetching ∨ ∃ fresh, p.call c = .writing fresh ∧ fresh.isValid last = true) →
      (∀ d, d ≠ c → p.call d = .start) → Stage last es p
  | served {c : Nat} {cached : CachedToken} : p.cache = some cached → cached.isValid last = true →
      p.asked = [c] → (∀ d, p.call d = .start ∨ p.call d = .returned (.ok cached.token)) → Stage last es p

section OneToken

variable {now₀ last : Int} {es : List TokenEvent}

theorem Stage.oneToken (h : Stage last es p) : OneToken p := by
  cases h with
  | quiet _ _ hcache hasked hcalls =>
    refine ⟨by simp [hasked], ?_⟩
    intro c result hc
    rw [hcalls c] at hc
    cases hc
  | @busy c _ _ hcache hasked hcall hcalls =>
    refine ⟨by simp [hasked], ?_⟩
    intro d result hd
    by_cases hdc : d = c
    · rcases hcall with hcall | ⟨fresh, hcall, -⟩ <;> rw [hdc, hcall] at hd <;> cases hd
    · rw [hcalls d hdc] at hd
      cases hd
  | served hcache _ hasked hcalls =>
    refine ⟨by simp [hasked], ?_⟩
    intro d result hd
    rcases hcalls d with hcall | hcall <;> rw [hcall] at hd <;> cases hd
    exact ⟨_, hcache, rfl⟩

theorem Stage.step (h : Stage last es p) (hstep : p.step e = some q) (hlast : p.now ≤ last)
    (hcheck : ∀ c, e = .check c → (∀ d, .check d ∉ es) ∨ ∃ d, .write d ∈ es)
    (hok : ∀ c err, e ≠ .respond c (.error err))
    (hlive : ∀ c access, e = .respond c (.ok access) → ∃ expiresAt,
      access.expiresAt p.now = some expiresAt ∧ CachedToken.isValid ⟨access.token, expiresAt⟩ last = true) :
    Stage last (es ++ [e]) q := by
  cases h with
  | quiet hchecks hwrites hcache hasked hcalls =>
    cases stepped_of_step hstep with
    | tick hle =>
      exact .quiet (fun c => notMem_concat (hchecks c) nofun) (fun c => notMem_concat (hwrites c) nofun)
        hcache hasked hcalls
    | hit hcall hsome hvalid =>
      rw [hcache] at hsome
      cases hsome
    | @miss c hcall hmiss =>
      refine .busy (c := c) ⟨c, by simp⟩ (fun d => notMem_concat (hwrites d) nofun) hcache ?_ (.inl ?_) ?_
      · simp [hasked]
      · exact (setCall_call p c .fetching c).trans (if_pos rfl)
      · intro d hdc
        exact (setCall_call p c .fetching d).trans ((if_neg hdc).trans (hcalls d))
    | failed hcall => exact absurd rfl (hok _ _)
    | @fetched c _ _ hcall =>
      rw [hcalls c] at hcall
      cases hcall
    | @panicked c _ hcall =>
      rw [hcalls c] at hcall
      cases hcall
    | @written c _ hcall =>
      rw [hcalls c] at hcall
      cases hcall
  | @busy c₀ hchecked hwrites hcache hasked hcall₀ hcalls =>
    have hmine : ∀ c, p.call c ≠ .start → c = c₀ := fun c hc => by_contra fun hne => hc (hcalls c hne)
    cases stepped_of_step hstep with
    | tick hle =>
      obtain ⟨d, hd⟩ := hchecked
      exact .busy ⟨d, by simp [hd]⟩ (fun c => notMem_concat (hwrites c) nofun) hcache hasked hcall₀ hcalls
    | hit hcall hsome hvalid =>
      rw [hcache] at hsome
      cases hsome
    | @miss c hcall hmiss =>
      obtain ⟨d, hd⟩ := hchecked
      rcases hcheck c rfl with hnone | ⟨d', hd'⟩
      · exact absurd hd (hnone d)
      · exact absurd hd' (hwrites d')
    | failed hcall => exact absurd rfl (hok _ _)
    | @fetched c access expiresAt hcall hexpires =>
      obtain rfl := hmine c (by rw [hcall]; nofun)
      obtain ⟨expiresAt', hexpires', hvalid⟩ := hlive c access rfl
      obtain rfl : expiresAt' = expiresAt := Option.some.inj (hexpires'.symm.trans hexpires)
      obtain ⟨d, hd⟩ := hchecked
      refine .busy (c := c) ⟨d, by simp [hd]⟩ (fun c => notMem_concat (hwrites c) nofun) hcache hasked
        (.inr ⟨⟨access.token, expiresAt'⟩, ?_, hvalid⟩) ?_
      · exact (setCall_call p c _ c).trans (if_pos rfl)
      · intro d hdc
        exact (setCall_call p c _ d).trans ((if_neg hdc).trans (hcalls d hdc))
    | @panicked c access hcall hexpires =>
      obtain ⟨expiresAt, hexpires', -⟩ := hlive c access rfl
      rw [hexpires] at hexpires'
      cases hexpires'
    | @written c fresh hcall =>
      obtain rfl := hmine c (by rw [hcall]; nofun)
      have hvalid : fresh.isValid last = true := by
        rcases hcall₀ with hcall' | ⟨fresh', hcall', hvalid⟩ <;> rw [hcall] at hcall' <;> cases hcall'
        exact hvalid
      refine .served (c := c) rfl hvalid hasked ?_
      intro d
      by_cases hdc : d = c
      · exact .inr ((setCall_call p c _ d).trans (if_pos hdc))
      · exact .inl ((setCall_call p c _ d).trans ((if_neg hdc).trans (hcalls d hdc)))
  | @served c₀ cached hcache hvalid hasked hcalls =>
    have hidle : ∀ c, p.call c ≠ .fetching ∧ ∀ fresh, p.call c ≠ .writing fresh := by
      intro c
      rcases hcalls c with hc | hc <;> rw [hc] <;> exact ⟨nofun, nofun⟩
    cases stepped_of_step hstep with
    | tick hle => exact .served hcache hvalid hasked hcalls
    | @hit c cached' hcall hsome _ =>
      obtain rfl : cached = cached' := Option.some.inj (hcache.symm.trans hsome)
      refine .served hcache hvalid hasked ?_
      intro d
      rw [setCall_call]
      split
      · exact .inr rfl
      · exact hcalls d
    | miss hcall hmiss =>
      rw [checkCache_of_isValid hcache (CachedToken.isValid_mono hlast hvalid)] at hmiss
      cases hmiss
    | failed hcall => exact absurd hcall (hidle _).1
    | fetched hcall _ => exact absurd hcall (hidle _).1
    | panicked hcall _ => exact absurd hcall (hidle _).1
    | written hcall => exact absurd hcall ((hidle _).2 _)

/-- A run in which every check but the first comes after a write uses one token. -/
theorem stage_of_run (hrun : run step (new now₀) es = some p) (hgood : GoodAnswers now₀ es p)
    (hchecks : ChecksAfterWrite es) : Stage p.now es p := by
  refine run_history (Stage p.now) (.quiet nofun nofun rfl rfl fun _ => rfl) ?_ hrun
  intro pre e post u v hes hu huv hpost hstage
  refine hstage.step huv ?_ ?_ ?_ ?_
  · exact (now_le_of_step huv).trans (now_le_of_run hpost)
  · rintro c rfl
    exact hchecks pre c post hes
  · rintro c err rfl
    exact hgood.ok c err (by rw [hes]; simp)
  · rintro c access rfl
    exact hgood.live pre c access post u hes hu

/-! ### More than one request -/

def isCheck : TokenEvent → Bool
  | .check _ => true
  | _ => false

/-- Until something is written, every check asks the credential. -/
theorem asked_of_unwritten (hrun : run step (new now₀) es = some p) (hwrites : ∀ d, .write d ∉ es) :
    p.cache = none ∧ p.asked.length = es.countP isCheck := by
  refine run_history (fun es p => (∀ d, .write d ∉ es) → p.cache = none ∧ p.asked.length = es.countP isCheck)
    (fun _ => ⟨rfl, rfl⟩) ?_ hrun hwrites
  intro pre e post u v _ _ huv _ ih hpre
  obtain ⟨hcache, hasked⟩ := ih fun d hd => hpre d (List.mem_append_left _ hd)
  rw [List.countP_append, List.countP_singleton, ← hasked]
  cases stepped_of_step huv with
  | @written c _ hcall => exact absurd (List.mem_append_right pre (List.mem_singleton.mpr rfl)) (hpre c)
  | hit hcall hsome _ =>
    rw [hcache] at hsome
    cases hsome
  | miss hcall hmiss => exact ⟨hcache, by simp [isCheck]⟩
  | _ => exact ⟨hcache, rfl⟩

theorem asked_mono (hrun : run step p es = some q) : p.asked.length ≤ q.asked.length := by
  refine run_invariant (fun r => p.asked.length ≤ r.asked.length) ?_ le_rfl hrun
  intro r e r' hr hstep
  cases stepped_of_step hstep with
  | miss hcall hmiss => exact hr.trans (by simp)
  | _ => exact hr

theorem checksAfterWrite_of_oneToken (hrun : run step (new now₀) es = some p) (hone : OneToken p) :
    ChecksAfterWrite es := by
  rintro pre c post rfl
  by_contra hnot
  rw [not_or, not_forall, not_exists] at hnot
  obtain ⟨⟨d, hd⟩, hwrites⟩ := hnot
  have hsplit : pre ++ .check c :: post = (pre ++ [.check c]) ++ post := by simp
  rw [hsplit, run_append] at hrun
  obtain ⟨u, hu, hpost⟩ := Option.bind_eq_some_iff.mp hrun
  obtain ⟨-, hasked⟩ := asked_of_unwritten hu fun d => notMem_concat (hwrites d) nofun
  have hearlier : 0 < pre.countP isCheck := List.countP_pos_iff.mpr ⟨_, not_not.mp hd, rfl⟩
  have hmono := asked_mono hpost
  have hle := hone.1
  rw [List.countP_append, List.countP_singleton, if_pos (show isCheck (.check c) = true from rfl)] at hasked
  omega

/-- Over all runs in which no fetch fails and every issued token stays valid: one token serves all calls
exactly if no call checks the cache between the first check and the first write. -/
theorem oneToken_iff (now₀ : Int) (es : List TokenEvent) (p : Provider)
    (hrun : run step (new now₀) es = some p) (hgood : GoodAnswers now₀ es p) :
    OneToken p ↔ ChecksAfterWrite es :=
  ⟨checksAfterWrite_of_oneToken hrun, fun hchecks => (stage_of_run hrun hgood hchecks).oneToken⟩

/-- Answers that name an expiry are good if all of it is later than the end of the run. -/
theorem goodAnswers_of_expiresOn (hok : ∀ c e, .respond c (.error e) ∉ es)
    (hlive : ∀ c access, .respond c (.ok access) ∈ es → 0 < access.expiresOn ∧
      CachedToken.isValid ⟨access.token, access.expiresOn.toInt * 1000000000⟩ p.now = true) :
    GoodAnswers now₀ es p := by
  refine ⟨hok, ?_⟩
  rintro pre c access post q rfl -
  obtain ⟨hpos, hvalid⟩ := hlive c access (by simp)
  have hpos' : 0 < access.expiresOn.toInt := Int64.lt_iff_toInt_lt.mp hpos
  have hlt := access.expiresOn.toInt_lt
  refine ⟨access.expiresOn.toInt * 1000000000, ?_, hvalid⟩
  unfold AccessToken.expiresAt SystemTime.checkedAdd SystemTime.UNIX_EPOCH SystemTime.MAX
  dsimp only
  rw [if_pos hpos, if_pos (by omega)]
  congr 1
  omega

/-- Two connections are opened at once: both calls find the cache empty and fetch a token each. -/
def twoAtOnce : List TokenEvent :=
  [.check 0, .check 1, .respond 0 (.ok ⟨"first", 7200⟩), .write 0, .respond 1 (.ok ⟨"second", 7200⟩), .write 1]

theorem goodAnswers_twoAtOnce {p : Provider} (hnow : p.now = 0) : GoodAnswers now₀ twoAtOnce p := by
  refine goodAnswers_of_expiresOn ?_ ?_
  · simp [twoAtOnce]
  · intro c access hmem
    rw [hnow]
    simp only [twoAtOnce, List.mem_cons, TokenEvent.respond.injEq, Except.ok.injEq, List.not_mem_nil, reduceCtorEq,
      false_or, or_false] at hmem
    rcases hmem with ⟨-, rfl⟩ | ⟨-, rfl⟩
    · decide
    · decide

theorem oneToken_iff_twoAtOnce : ∃ p, run step (new 0) twoAtOnce = some p ∧
    (OneToken p ↔ ChecksAfterWrite twoAtOnce) :=
  ⟨_, rfl, oneToken_iff 0 twoAtOnce _ rfl (goodAnswers_twoAtOnce rfl)⟩

/-- The credential is asked twice, although no fetch fails and both tokens stay valid. -/
theorem twoAtOnce_asks_twice : ∃ p, run step (new 0) twoAtOnce = some p ∧ GoodAnswers 0 twoAtOnce p ∧
    p.asked.length = 2 ∧ ¬ OneToken p := by
  refine ⟨_, rfl, goodAnswers_twoAtOnce rfl, rfl, ?_⟩
  intro hone
  exact absurd hone.1 (by decide)

end OneToken

end Provider
end RustDbDriver
