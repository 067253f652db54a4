import RustDbDriver.AzureToken

/-!
# Which token stays in the cache

`refresh_token` writes the token it was answered over whatever the cache holds by then. Where the
credential issues tokens that expire later and later, the cache may still go back: a call that was issued
its token early may write it late. `expiryNeverDecreases_iff` says that this is the only way.
-/

namespace RustDbDriver
open Lib
namespace Provider

variable {now₀ : Int} {es : List TokenEvent} {p q : Provider} {e : TokenEvent} {c d : Nat} {a b : CachedToken}

/-! ### One answer for a call -/

/-- The credential has answered the call, or it was not asked. -/
def Answered (p : Provider) (c : Nat) : Prop := p.call c ≠ .start ∧ p.call c ≠ .fetching

theorem answered_setCall {call : GetToken} (h : p.Answered c)
    (hcall : c = d → call ≠ .start ∧ call ≠ .fetching) : (p.setCall d call).Answered c := by
  unfold Answered
  rw [setCall_call]
  split
  · next heq => exact hcall heq
  · exact h

theorem answered_of_step (h : p.Answered c) (hstep : p.step e = some q) : q.Answered c := by
  cases stepped_of_step hstep with
  | tick hle => exact h
  | hit hcall _ _ => exact answered_setCall h fun _ => ⟨nofun, nofun⟩
  | @miss d hcall _ =>
    have hcd : c ≠ d := by
      rintro rfl
      exact h.1 hcall
    exact @answered_setCall p c d .fetching h fun heq => absurd heq hcd
  | failed hcall => exact answered_setCall h fun _ => ⟨nofun, nofun⟩
  | fetched hcall _ => exact answered_setCall h fun _ => ⟨nofun, nofun⟩
  | panicked hcall _ => exact answered_setCall h fun _ => ⟨nofun, nofun⟩
  | @written d fresh hcall =>
    exact @answered_setCall p c d (.returned (.ok fresh.token)) h fun _ => ⟨nofun, nofun⟩

theorem answered_of_respond {response : Except String AccessToken}
    (hstep : p.step (.respond c response) = some q) : q.Answered c := by
  unfold Answered
  cases stepped_of_step hstep with
  | failed hcall => rw [setCall_call, if_pos rfl]; exact ⟨nofun, nofun⟩
  | fetched hcall _ => rw [setCall_call, if_pos rfl]; exact ⟨nofun, nofun⟩
  | panicked hcall _ => rw [setCall_call, if_pos rfl]; exact ⟨nofun, nofun⟩

theorem fetching_of_respond {response : Except String AccessToken}
    (hstep : p.step (.respond c response) = some q) : p.call c = .fetching := by
  cases stepped_of_step hstep <;> assumption

/-- A call is answered once. -/
theorem respond_once {r r' : Except String AccessToken} {mid post : List TokenEvent}
    (h : run step p (.respond c r :: (mid ++ .respond c r' :: post)) = some q) : False := by
  obtain ⟨u, hu, hrest⟩ := Option.bind_eq_some_iff.mp h
  obtain ⟨v, w, hv, hw, -⟩ := run_split hrest
  have hanswered : v.Answered c :=
    run_invariant (Answered · c) (fun _ _ _ => answered_of_step) (answered_of_respond hu) hv
  exact hanswered.2 (fetching_of_respond hw)

theorem issuedTo_unique (hrun : run step (new now₀) es = some p) (ha : IssuedTo now₀ es c a)
    (hb : IssuedTo now₀ es c b) : a = b := by
  obtain ⟨pre, access, post, u, rfl, hu, htoken, hexpires⟩ := ha
  obtain ⟨pre', access', post', u', heq, hu', htoken', hexpires'⟩ := hb
  have hnot {pre mid post : List TokenEvent} {r r' : Except String AccessToken}
      (h : run step (new now₀) (pre ++ .respond c r :: (mid ++ .respond c r' :: post)) = some p) : False := by
    rw [run_append] at h
    obtain ⟨v, -, hv⟩ := Option.bind_eq_some_iff.mp h
    exact respond_once hv
  rcases split_cases heq with ⟨rfl, hevent⟩ | ⟨mid, rfl⟩ | ⟨mid, rfl⟩
  · cases hevent
    rw [hu] at hu'
    cases hu'
    exact congrArg₂ CachedToken.mk (htoken.trans htoken'.symm) (hexpires.trans hexpires'.symm)
  · rw [heq, List.append_assoc, List.cons_append] at hrun
    exact (hnot hrun).elim
  · rw [List.append_assoc, List.cons_append] at hrun
    exact (hnot hrun).elim

/-! ### Writes -/

/-- What stands in the cache was written there by a call. -/
theorem exists_write_of_cache (hrun : run step (new now₀) es = some p) (hcache : p.cache = some a) :
    ∃ pre c post, es = pre ++ .write c :: post ∧ IssuedTo now₀ es c a := by
  refine run_history (fun es p => ∀ a, p.cache = some a →
    ∃ pre c post, es = pre ++ .write c :: post ∧ IssuedTo now₀ es c a) ?_ ?_ hrun a hcache
  · intro a h
    cases h
  intro pre e post u v _ hu huv _ ih a hv
  have hkeep (hsame : v.cache = u.cache) : ∃ pre' c post', pre ++ [e] = pre' ++ .write c :: post' ∧
      IssuedTo now₀ (pre ++ [e]) c a := by
    obtain ⟨pre', c, post', rfl, hissued⟩ := ih a (hsame ▸ hv)
    exact ⟨pre', c, post' ++ [e], by simp, hissued.append [e]⟩
  cases stepped_of_step huv with
  | @written c fresh hcall =>
    cases hv
    exact ⟨pre, c, [], rfl, ((provenance_of_run hu).writing c _ hcall).append _⟩
  | _ => exact hkeep rfl

/-- A write puts the token in the cache that was issued to the call. -/
theorem cache_of_write (hrun : run step (new now₀) es = some p) (hstep : p.step (.write c) = some q) :
    ∃ b, q.cache = some b ∧ IssuedTo now₀ es c b := by
  cases stepped_of_step hstep with
  | written hcall => exact ⟨_, rfl, (provenance_of_run hrun).writing c _ hcall⟩

theorem cache_of_step (hstep : p.step e = some q) : q.cache = p.cache ∨ ∃ c, e = .write c := by
  cases stepped_of_step hstep with
  | @written c _ _ => exact .inr ⟨c, rfl⟩
  | _ => exact .inl rfl

/-! ### The expiry in the cache -/

/-- From any state of the run on, the cache holds a token that expires no earlier. -/
def ExpiryNeverDecreases (now₀ : Int) (es : List TokenEvent) : Prop :=
  ∀ pre mid post p q a, es = pre ++ (mid ++ post) → run step (new now₀) pre = some p →
    run step p mid = some q → p.cache = some a → ∃ b, q.cache = some b ∧ a.expiresAt ≤ b.expiresAt

/-- Of two calls, the one whose token was issued later got one that expires no earlier; `issued` numbers the
calls in the order in which the credential issued their tokens. -/
def IssuedInOrder (now₀ : Int) (es : List TokenEvent) (issued : Nat → Nat) : Prop :=
  ∀ c d a b, IssuedTo now₀ es c a → IssuedTo now₀ es d b → issued c < issued d → a.expiresAt ≤ b.expiresAt

/-- A call writes after one whose token was issued later only if the two tokens expire together. -/
def WrittenInOrder (now₀ : Int) (es : List TokenEvent) (issued : Nat → Nat) : Prop :=
  ∀ pre c mid d post a b, es = pre ++ .write c :: (mid ++ .write d :: post) → issued d < issued c →
    IssuedTo now₀ es c a → IssuedTo now₀ es d b → a.expiresAt = b.expiresAt

section Order

variable {issued : Nat → Nat}

theorem le_of_overwrite (hissued : Function.Injective issued) (horder : IssuedInOrder now₀ es issued)
    (hwritten : WrittenInOrder now₀ es issued) (hrun : run step (new now₀) es = some p)
    {pre post : List TokenEvent} {u v : Provider} (hes : es = pre ++ .write d :: post)
    (hu : run step (new now₀) pre = some u) (huv : u.step (.write d) = some v) (hcache : u.cache = some a) :
    ∃ b, v.cache = some b ∧ a.expiresAt ≤ b.expiresAt := by
  obtain ⟨b, hb, hissuedb⟩ := cache_of_write hu huv
  obtain ⟨pre', c, mid, rfl, hissueda⟩ := exists_write_of_cache hu hcache
  have ha' : IssuedTo now₀ es c a := hes ▸ hissueda.append _
  have hb' : IssuedTo now₀ es d b := hes ▸ hissuedb.append _
  refine ⟨b, hb, ?_⟩
  rcases Nat.lt_trichotomy (issued c) (issued d) with hlt | heq | hgt
  · exact horder c d a b ha' hb' hlt
  · obtain rfl := hissued heq
    rw [issuedTo_unique hrun ha' hb']
  · exact (hwritten pre' c mid d post a b (by simp [hes]) hgt ha' hb').le

theorem expiryNeverDecreases_of_written (hissued : Function.Injective issued)
    (horder : IssuedInOrder now₀ es issued) (hwritten : WrittenInOrder now₀ es issued)
    (hrun : run step (new now₀) es = some p) : ExpiryNeverDecreases now₀ es := by
  rintro pre mid post u v a rfl hu huv hcache
  refine run_history (fun _ w => ∃ b, w.cache = some b ∧ a.expiresAt ≤ b.expiresAt) ⟨a, hcache, le_rfl⟩ ?_ huv
  rintro mid₁ e mid₂ w w' rfl hw hww' - ⟨b, hb, hle⟩
  rcases cache_of_step hww' with hsame | ⟨d, rfl⟩
  · exact ⟨b, hsame.trans hb, hle⟩
  · have hpre : run step (new now₀) (pre ++ mid₁) = some w := by rw [run_append, hu, Option.bind_some, hw]
    have hes : pre ++ (mid₁ ++ .write d :: mid₂ ++ post) = (pre ++ mid₁) ++ .write d :: (mid₂ ++ post) := by
      simp
    obtain ⟨b', hb', hle'⟩ := le_of_overwrite hissued horder hwritten hrun hes hpre hww' hb
    exact ⟨b', hb', hle.trans hle'⟩

theorem written_of_expiryNeverDecreases (horder : IssuedInOrder now₀ es issued)
    (hexpiry : ExpiryNeverDecreases now₀ es) (hrun : run step (new now₀) es = some p) :
    WrittenInOrder now₀ es issued := by
  rintro pre c mid d post a b rfl hlt ha hb
  obtain ⟨u, u', hu, huu', hrest⟩ := run_split hrun
  obtain ⟨v, v', hv, hvv', -⟩ := run_split hrest
  obtain ⟨a', ha', hissueda⟩ := cache_of_write hu huu'
  have hu' : run step (new now₀) (pre ++ [.write c]) = some u' := by
    rw [run_concat, hu, Option.bind_some, huu']
  have hbefore : pre ++ .write c :: mid = (pre ++ [.write c]) ++ mid := by simp
  have hv' : run step (new now₀) (pre ++ .write c :: mid) = some v := by
    rw [hbefore, run_append, hu', Option.bind_some, hv]
  obtain ⟨b', hb', hissuedb⟩ := cache_of_write hv' hvv'
  -- what the two calls wrote are the tokens issued to them
  have hes : pre ++ .write c :: (mid ++ .write d :: post) = (pre ++ .write c :: mid) ++ .write d :: post := by
    simp
  obtain rfl : a = a' := issuedTo_unique hrun ha (hissueda.append _)
  obtain rfl : b = b' := issuedTo_unique hrun hb (hes ▸ hissuedb.append _)
  have hfrom : run step u' (mid ++ [.write d]) = some v' := by rw [run_concat, hv, Option.bind_some, hvv']
  obtain ⟨b', hb'', hle⟩ :=
    hexpiry (pre ++ [.write c]) (mid ++ [.write d]) post u' v' a (by simp) hu' hfrom ha'
  obtain rfl : b = b' := Option.some.inj (hb'.symm.trans hb'')
  exact le_antisymm hle (horder d c b a hb ha hlt)

/-- Over all interleavings in which tokens that the credential issues later expire no earlier: the expiry in
the cache never decreases exactly if a call writes after one whose token was issued later only where the two
tokens expire together. -/
theorem expiryNeverDecreases_iff (now₀ : Int) (es : List TokenEvent) (p : Provider) (issued : Nat → Nat)
    (hrun : run step (new now₀) es = some p) (hissued : Function.Injective issued)
    (horder : IssuedInOrder now₀ es issued) :
    ExpiryNeverDecreases now₀ es ↔ WrittenInOrder now₀ es issued :=
  ⟨fun hexpiry => written_of_expiryNeverDecreases horder hexpiry hrun,
    fun hwritten => expiryNeverDecreases_of_written hissued horder hwritten hrun⟩

/-- Call 1 is issued the later token, and writes it before call 0 writes its own. -/
def overtaken : List TokenEvent :=
  [.check 0, .check 1, .respond 0 (.ok ⟨"old", 7200⟩), .respond 1 (.ok ⟨"new", 9000⟩), .write 1, .write 0]

theorem expiresAt_overtaken (h : IssuedTo now₀ overtaken c a) :
    (c = 0 ∧ a.expiresAt = 7200 * 1000000000) ∨ (c = 1 ∧ a.expiresAt = 9000 * 1000000000) := by
  obtain ⟨pre, access, post, u, hes, -, -, hexpires⟩ := h
  have hmem : .respond c (.ok access) ∈ overtaken := hes ▸ by simp
  simp only [overtaken, List.mem_cons, TokenEvent.respond.injEq, Except.ok.injEq, List.not_mem_nil,
    reduceCtorEq, false_or, or_false] at hmem
  rcases hmem with ⟨rfl, rfl⟩ | ⟨rfl, rfl⟩
  · exact .inl ⟨rfl, hexpires⟩
  · exact .inr ⟨rfl, hexpires⟩

theorem issuedInOrder_overtaken : IssuedInOrder now₀ overtaken id := by
  intro c d a b ha hb hlt
  rcases expiresAt_overtaken ha with ⟨rfl, hold⟩ | ⟨rfl, hnew⟩
  · rcases expiresAt_overtaken hb with ⟨rfl, -⟩ | ⟨rfl, hnew⟩
    · exact absurd hlt (lt_irrefl _)
    · rw [hold, hnew]
      decide
  · rcases expiresAt_overtaken hb with ⟨rfl, -⟩ | ⟨rfl, -⟩
    · exact absurd hlt (Nat.not_lt_zero 1)
    · exact absurd hlt (lt_irrefl _)

theorem expiryNeverDecreases_iff_overtaken : ∃ p, run step (new 0) overtaken = some p ∧
    (ExpiryNeverDecreases 0 overtaken ↔ WrittenInOrder 0 overtaken id) :=
  ⟨_, rfl, expiryNeverDecreases_iff 0 overtaken _ id rfl Function.injective_id issuedInOrder_overtaken⟩

/-- The token that expires later is overwritten by the one that expires earlier. -/
theorem overtaken_goes_back : (∃ p, run step (new 0) overtaken = some p) ∧ IssuedInOrder 0 overtaken id ∧
    ¬ ExpiryNeverDecreases 0 overtaken := by
  refine ⟨⟨_, rfl⟩, issuedInOrder_overtaken, ?_⟩
  intro hexpiry
  obtain ⟨b, hb, hle⟩ :=
    hexpiry (overtaken.take 5) [.write 0] [] _ _ ⟨"new", 9000 * 1000000000⟩ rfl rfl rfl rfl
  cases hb
  exact absurd hle (by decide)

end Order

end Provider
end RustDbDriver
