import Mathlib.Data.List.Induction
import Mathlib.Tactic.Linarith
import Sigil.Sdk.AttestationCache

/-!
# What the cache of attestations answers

An answer out of the cache was made for the same question, is young enough, and has not been deleted, as long as calls
that share a key ask the same question of the same provider, no call wants a younger answer than the one that is there,
and no public key is deleted while an answer for one of its PCR3 values is cached.
-/

namespace Sigil.Sdk

/-! ## Entries -/

namespace AttestationCache

variable {ρ : Type} {cache : AttestationCache ρ} {key k : String} {entry e : CacheEntry ρ} {now : Int}

theorem mem_of_lookup {entries : List (String × CacheEntry ρ)} (h : entries.lookup key = some entry) :
    (key, entry) ∈ entries := by
  obtain ⟨front, back, rfl, -⟩ := List.lookup_eq_some_iff.mp h
  simp

theorem live_eq_some : cache.live key now = some entry ↔
    cache.entries.lookup key = some entry ∧ (now : ℚ) < entry.expiresAt := by
  simp [live, Option.filter_eq_some_iff]

theorem get_fst : (cache.get key now).1 = (cache.live key now).map CacheEntry.result := by
  unfold get live
  cases cache.entries.lookup key with
  | none => rfl
  | some entry =>
      by_cases hlive : (now : ℚ) < entry.expiresAt
      · simp [hlive, not_le.mpr hlive]
      · simp [not_lt.mp hlive]

theorem mem_delete : (k, e) ∈ (cache.delete key).entries ↔ (k, e) ∈ cache.entries ∧ k ≠ key := by
  simp [delete]

theorem mem_of_mem_get (h : (k, e) ∈ (cache.get key now).2.entries) : (k, e) ∈ cache.entries := by
  unfold get at h
  split at h
  · exact h
  · split at h
    · exact (mem_delete.mp h).1
    · exact h

/-- What is in the cache after a write was there before, or is what is written. -/
theorem mem_set {result : ρ} {ttlMs : ℚ} (h : (k, e) ∈ (cache.set key result ttlMs now).entries) :
    (k = key ∧ e = { result := result, expiresAt := now + ttlMs }) ∨ (k, e) ∈ cache.entries := by
  unfold set at h
  dsimp only at h
  split at h
  · obtain ⟨old, hold, heq⟩ := List.mem_map.mp h
    split at heq
    · cases heq
      exact .inl ⟨rfl, rfl⟩
    · subst heq
      exact .inr hold
  · rcases List.mem_append.mp h with hkept | hnew
    · split at hkept
      · exact .inr (List.mem_of_mem_tail hkept)
      · exact .inr hkept
    · simp only [List.mem_singleton, Prod.mk.injEq] at hnew
      exact .inl hnew

end AttestationCache

/-! ## Keys -/

/-- `expectedPcr3` as far as the key has it: the empty text counts as none. -/
def AttestationCall.pcr3 (c : AttestationCall) : Option String :=
  c.config.expectedPcr3.filter fun expected => expected ≠ ""

/-- The second text goes on behind the first with the delimiter of PCR3 values. -/
def Continues (s t : String) : Prop := ∃ rest, t.toList = s.toList ++ ("|pcr3=".toList ++ rest)

/-- A delimiter whose first character does not come again cannot overlap with itself. -/
theorem eq_nil_or_prefix_of_delimiter {α : Type} {d : α} {ds p q r : List α} (hd : d ∉ ds)
    (h : d :: ds ++ p = r ++ (d :: ds ++ q)) : r = [] ∨ ∃ rest, r = d :: ds ++ rest := by
  rcases List.append_eq_append_iff.mp h with ⟨rest, hr, -⟩ | ⟨rest, hdelimiter, hrest⟩
  · exact .inr ⟨rest, hr⟩
  · cases rest with
    | nil => exact .inr ⟨[], by simpa using hdelimiter.symm⟩
    | cons x rest =>
        obtain rfl : d = x := (List.cons.inj hrest).1
        cases r with
        | nil => exact .inl rfl
        | cons y r =>
            obtain ⟨-, rfl⟩ := List.cons.inj hdelimiter
            exact absurd (List.mem_append_right r List.mem_cons_self) hd

section
variable {o c : AttestationCall}

theorem AttestationCall.toList_cacheKey (c : AttestationCall) : c.cacheKey.toList =
    c.wallet.publicKey.toList ++ c.pcr3.elim [] fun expected => "|pcr3=".toList ++ expected.toList := by
  unfold AttestationCall.cacheKey AttestationCall.pcr3
  cases c.config.expectedPcr3 with
  | none => simp
  | some expected =>
      by_cases hempty : expected = ""
      · simp [hempty, Option.filter_some]
      · simp [hempty, Option.filter_some]

theorem not_continues_self (s : String) : ¬ Continues s s := by
  rintro ⟨rest, h⟩
  have hlength := congrArg List.length h
  simp at hlength

/-- A key is that of one question, unless a public key goes on behind another one. -/
theorem AttestationCall.eq_of_cacheKey_eq (h : o.cacheKey = c.cacheKey)
    (hafter : o.pcr3.isSome → ¬ Continues o.wallet.publicKey c.wallet.publicKey)
    (hbefore : c.pcr3.isSome → ¬ Continues c.wallet.publicKey o.wallet.publicKey) :
    o.wallet.publicKey = c.wallet.publicKey ∧ o.pcr3 = c.pcr3 := by
  have hlist := congrArg String.toList h
  rw [o.toList_cacheKey, c.toList_cacheKey] at hlist
  have hdelimiter : "|pcr3=".toList = '|' :: "pcr3=".toList := rfl
  have hbar : '|' ∉ "pcr3=".toList := by decide
  cases ho : o.pcr3 with
  | none =>
      cases hc : c.pcr3 with
      | none => exact ⟨String.toList_inj.mp (by simpa [ho, hc] using hlist), rfl⟩
      | some expected =>
          rw [ho, hc, Option.elim_none, Option.elim_some, List.append_nil] at hlist
          exact absurd ⟨_, hlist⟩ (hbefore (by rw [hc]; rfl))
  | some expected =>
      have hafter := hafter (by rw [ho]; rfl)
      cases hc : c.pcr3 with
      | none =>
          rw [ho, hc, Option.elim_none, Option.elim_some, List.append_nil] at hlist
          exact absurd ⟨_, hlist.symm⟩ hafter
      | some expected' =>
          have hbefore := hbefore (by rw [hc]; rfl)
          rw [ho, hc, Option.elim_some, Option.elim_some] at hlist
          rcases List.append_eq_append_iff.mp hlist with ⟨r, hkey, hrest⟩ | ⟨r, hkey, hrest⟩
          · rw [hdelimiter] at hrest
            rcases eq_nil_or_prefix_of_delimiter hbar hrest with rfl | ⟨rest, rfl⟩
            · refine ⟨String.toList_inj.mp (by simpa using hkey.symm), ?_⟩
              rw [List.nil_append, List.append_cancel_left_eq] at hrest
              rw [String.toList_inj.mp hrest]
            · exact absurd ⟨rest, hkey⟩ hafter
          · rw [hdelimiter] at hrest
            rcases eq_nil_or_prefix_of_delimiter hbar hrest with rfl | ⟨rest, rfl⟩
            · refine ⟨String.toList_inj.mp (by simpa using hkey), ?_⟩
              rw [List.nil_append, List.append_cancel_left_eq] at hrest
              rw [String.toList_inj.mp hrest]
            · exact absurd ⟨rest, hkey⟩ hbefore

end

/-! ## The law -/

/-- The call asks for the public key to be forgotten. -/
def CacheEvent.Forgets (publicKey : String) : CacheEvent → Prop
  | verify _ => False
  | delete deleted _ => deleted = publicKey
  | clear _ => True

/-- The call deletes what is cached under the key. -/
def CacheEvent.Removes (key : String) : CacheEvent → Prop
  | verify _ => False
  | delete publicKey _ => key = publicKey ∨ startsWith key (publicKey ++ ":") = true
  | clear _ => True

/-- The verifier is asked. -/
def AttestationCall.Asks (c : AttestationCall) (before : List CacheEvent) : Prop :=
  (c.lookup (cacheAfter before)).1 = none

/-- The result is the answer to `c` itself, or to an earlier call with the same question, at most a lifetime ago, after
which nothing was forgotten. -/
def ProducedFor (before : List CacheEvent) (c : AttestationCall) (result : AttestationResult) : Prop :=
  c.Asks before ∧ result = c.fresh ∨
  ∃ earlier o later ttl, before = earlier ++ .verify o :: later ∧ o.Asks earlier ∧ result = o.fresh ∧
    o.wallet.publicKey = c.wallet.publicKey ∧ o.config.expectedPcr3 = c.config.expectedPcr3 ∧
    o.detected = c.detected ∧ c.ttl = some ttl ∧ (c.start - o.finish : ℚ) ≤ ttl ∧
    ∀ e ∈ later, ¬ e.Forgets c.wallet.publicKey

/-- The answer to the call can be cached at a time: it is verified, its lifetime lasts, and no call in between deletes
it. -/
structure AttestationCall.Lasts (o : AttestationCall) (later : List CacheEvent) (time : Int) : Prop where
  verified : o.fresh.status.isVerified = true
  lifetime : ∃ ttl, o.ttl = some ttl ∧ (time : ℚ) < o.finish + ttl
  kept : ∀ e ∈ later, ¬ e.Removes o.cacheKey

/-- Two calls about one public key and one PCR3 value. -/
def AttestationCall.SameQuestion (o c : AttestationCall) : Prop :=
  o.wallet.publicKey = c.wallet.publicKey ∧ o.pcr3 = c.pcr3

/-- How a call may come after one whose answer can be cached: no public key goes on behind the other one, and on the
same question the wallets have one provider, and the answer is no older than the call takes it. -/
structure AttestationCall.MayFollow (c o : AttestationCall) : Prop where
  after : o.pcr3.isSome → ¬ Continues o.wallet.publicKey c.wallet.publicKey
  before : c.pcr3.isSome → ¬ Continues c.wallet.publicKey o.wallet.publicKey
  absent : o.SameQuestion c → (o.config.expectedPcr3 = none ↔ c.config.expectedPcr3 = none)
  provider : o.SameQuestion c → o.detected = c.detected
  age : o.SameQuestion c → ∀ ttl, c.ttl = some ttl → (c.start - o.finish : ℚ) ≤ ttl

/-- A condition on the calls. A public key is deleted only when no answer for one of its PCR3 values can be cached. -/
def CacheEvent.Safe (before : List CacheEvent) : CacheEvent → Prop
  | verify c => ∀ earlier o later, before = earlier ++ .verify o :: later → o.Lasts later c.start → c.MayFollow o
  | delete publicKey time => ∀ earlier o later, before = earlier ++ .verify o :: later → o.Lasts later time →
      o.wallet.publicKey = publicKey → o.pcr3 = none
  | clear _ => True

/-- Times do not decrease. -/
structure InOrder (events : List CacheEvent) : Prop where
  each : ∀ e ∈ events, e.start ≤ e.finish
  between : events.Pairwise fun e e' => e.finish ≤ e'.start

/-- The entry was stored by a call, and its key was not deleted since. -/
def StoredIn (before : List CacheEvent) (key : String) (entry : CacheEntry Attested) : Prop :=
  ∃ earlier o later ttl, before = earlier ++ .verify o :: later ∧ o.Asks earlier ∧
    entry = { result := { result := o.fresh, madeFor := o }, expiresAt := o.finish + ttl } ∧ key = o.cacheKey ∧
    o.ttl = some ttl ∧ o.fresh.status.isVerified = true ∧ ∀ e ∈ later, ¬ e.Removes key

section
variable {before : List CacheEvent} {key : String} {entry : CacheEntry Attested}

@[simp] theorem cacheAfter_concat (e : CacheEvent) : cacheAfter (before ++ [e]) = e.exec (cacheAfter before) := by
  simp [cacheAfter]

theorem StoredIn.concat (h : StoredIn before key entry) {e : CacheEvent} (he : ¬ e.Removes key) :
    StoredIn (before ++ [e]) key entry := by
  obtain ⟨earlier, o, later, ttl, rfl, hasks, hentry, hkey, httl, hverified, hlater⟩ := h
  refine ⟨earlier, o, later ++ [e], ttl, by simp, hasks, hentry, hkey, httl, hverified, fun e' he' => ?_⟩
  rcases List.mem_append.mp he' with hmem | hmem
  · exact hlater e' hmem
  · rwa [List.mem_singleton.mp hmem]

theorem AttestationCall.mem_of_mem_lookup {c : AttestationCall} {cache : AttestationCache Attested}
    (h : (key, entry) ∈ (c.lookup cache).2.entries) : (key, entry) ∈ cache.entries := by
  unfold AttestationCall.lookup at h
  split at h
  · exact AttestationCache.mem_of_mem_get h
  · exact h

/-- A call adds its own answer at most. -/
theorem AttestationCall.mem_of_mem_verify {c : AttestationCall}
    (h : (key, entry) ∈ (verifyTeeAttestation (cacheAfter before) c).2.entries) :
    (key, entry) ∈ (cacheAfter before).entries ∨ c.Asks before ∧ key = c.cacheKey ∧
      c.fresh.status.isVerified = true ∧ ∃ ttl, c.ttl = some ttl ∧
        entry = { result := { result := c.fresh, madeFor := c }, expiresAt := c.finish + ttl } := by
  unfold verifyTeeAttestation at h
  split at h
  · exact .inl h
  split at h
  · exact .inl h
  cases hfound : (c.lookup (cacheAfter before)).1 with
  | some attested =>
      simp only [AttestationCall.resolve, hfound] at h
      exact .inl (mem_of_mem_lookup h)
  | none =>
      simp only [AttestationCall.resolve, hfound, AttestationCall.store] at h
      split at h
      · rename_i ttl httl
        split at h
        · rename_i hverified
          rcases AttestationCache.mem_set h with ⟨hkey, hentry⟩ | hold
          · exact .inr ⟨hfound, hkey, hverified, ttl, httl, hentry⟩
          · exact .inl (mem_of_mem_lookup hold)
        · exact .inl (mem_of_mem_lookup h)
      · exact .inl (mem_of_mem_lookup h)

/-- One call keeps it true that every entry was stored by a call. -/
theorem storedIn_step {e : CacheEvent}
    (hinv : ∀ key entry, (key, entry) ∈ (cacheAfter before).entries → StoredIn before key entry) :
    ∀ key entry, (key, entry) ∈ (cacheAfter (before ++ [e])).entries → StoredIn (before ++ [e]) key entry := by
  intro key entry hmem
  rw [cacheAfter_concat] at hmem
  cases e with
  | verify c =>
      rcases AttestationCall.mem_of_mem_verify hmem with hold | ⟨hasks, hkey, hverified, ttl, httl, hentry⟩
      · exact (hinv key entry hold).concat id
      · exact ⟨before, c, [], ttl, by simp, hasks, hentry, hkey, httl, hverified, by simp⟩
  | delete publicKey time =>
      simp only [CacheEvent.exec, deleteFromAttestationCache, AttestationCache.deleteByPrefix,
        AttestationCache.delete, List.mem_filter, decide_eq_true_eq, Bool.not_eq_true'] at hmem
      obtain ⟨⟨hold, hkey⟩, hstart⟩ := hmem
      apply (hinv key entry hold).concat
      intro hremoves
      cases hremoves with
      | inl heq => exact hkey heq
      | inr hbehind => simp [hbehind] at hstart
  | clear time => cases hmem

theorem storedIn_run (before : List CacheEvent) :
    ∀ key entry, (key, entry) ∈ (cacheAfter before).entries → StoredIn before key entry := by
  induction before using List.reverseRecOn with
  | nil =>
      intro key entry hmem
      cases hmem
  | append_singleton before e ih => exact storedIn_step ih

/-- A call on a safe sequence that finds an answer has asked the question of it, and takes it at its age. -/
theorem AttestationCall.MayFollow.question {o c : AttestationCall} (h : c.MayFollow o)
    (hkey : c.cacheKey = o.cacheKey) : o.wallet.publicKey = c.wallet.publicKey ∧
      o.config.expectedPcr3 = c.config.expectedPcr3 ∧ o.detected = c.detected ∧
      ∀ ttl, c.ttl = some ttl → (c.start - o.finish : ℚ) ≤ ttl := by
  have hsame : o.SameQuestion c := eq_of_cacheKey_eq hkey.symm h.after h.before
  refine ⟨hsame.1, ?_, h.provider hsame, h.age hsame⟩
  have hpcr3 : o.config.expectedPcr3.filter (fun expected => expected ≠ "") =
      c.config.expectedPcr3.filter (fun expected => expected ≠ "") := hsame.2
  have habsent := h.absent hsame
  cases ho : o.config.expectedPcr3 with
  | none => exact (habsent.mp ho).symm
  | some p =>
      cases hc : c.config.expectedPcr3 with
      | none =>
          rw [habsent.mpr hc] at ho
          cases ho
      | some q =>
          rw [ho, hc, Option.filter_some, Option.filter_some] at hpcr3
          by_cases hp : p = "" <;> by_cases hq : q = "" <;> simp_all

/-- A deletion between an answer and its use would have removed it. -/
theorem AttestationCall.Lasts.not_forgets {o : AttestationCall} {later : List CacheEvent} {time : Int}
    (h : o.Lasts later time) (earlier : List CacheEvent) (htime : ∀ e ∈ later, e.start ≤ time)
    (hsafe : ∀ front e back, later = front ++ e :: back → e.Safe (earlier ++ .verify o :: front)) :
    ∀ e ∈ later, ¬ e.Forgets o.wallet.publicKey := by
  intro e he hforgets
  cases e with
  | verify c => exact hforgets
  | clear t => exact h.kept _ he trivial
  | delete publicKey t =>
      obtain rfl : publicKey = o.wallet.publicKey := hforgets
      obtain ⟨front, back, rfl⟩ := List.append_of_mem he
      obtain ⟨ttl, httl, hlives⟩ := h.lifetime
      have hle : (t : ℚ) ≤ time := by exact_mod_cast htime _ he
      have hlasts : o.Lasts front t :=
        ⟨h.verified, ⟨ttl, httl, hle.trans_lt hlives⟩, fun e he => h.kept e (List.mem_append_left _ he)⟩
      have hbare : o.pcr3 = none := hsafe front _ back rfl earlier o front rfl hlasts rfl
      apply h.kept _ he
      refine .inl (String.toList_inj.mp ?_)
      rw [o.toList_cacheKey, hbare, Option.elim_none, List.append_nil]

end

/-- Every result that is returned was produced for the question of its call, recently, and not forgotten since. -/
theorem attestation_law {events : List CacheEvent} (horder : InOrder events)
    (hsafe : ∀ before e after, events = before ++ e :: after → e.Safe before)
    {before : List CacheEvent} {c : AttestationCall} {after : List CacheEvent}
    (hsplit : events = before ++ .verify c :: after) (hkey : c.wallet.publicKey ≠ "") {result : AttestationResult}
    (hresult : (verifyTeeAttestation (cacheAfter before) c).1 = .ok result) : ProducedFor before c result := by
  have hreturned : result = (c.resolve (cacheAfter before)).1.result := by
    unfold verifyTeeAttestation at hresult
    split at hresult
    · cases hresult
    simp only [AttestationCall.enforce] at hresult
    split at hresult
    · cases hresult
    split at hresult
    · split at hresult
      · exact (Except.ok.inj hresult).symm
      · cases hresult
    · exact (Except.ok.inj hresult).symm
  cases hfound : (c.lookup (cacheAfter before)).1 with
  | none =>
      refine .inl ⟨hfound, ?_⟩
      simp only [hreturned, AttestationCall.resolve, hfound]
  | some attested =>
      obtain ⟨ttl, httl⟩ : ∃ ttl, c.ttl = some ttl := by
        cases httl : c.ttl with
        | none => simp [AttestationCall.lookup, httl] at hfound
        | some ttl => exact ⟨ttl, rfl⟩
      obtain ⟨entry, hlive, rfl⟩ : ∃ entry, (cacheAfter before).live c.cacheKey c.start = some entry ∧
          entry.result = attested := by
        simpa [AttestationCall.lookup, httl, AttestationCache.get_fst] using hfound
      obtain ⟨hlookup, hexpires⟩ := AttestationCache.live_eq_some.mp hlive
      obtain ⟨earlier, o, later, lifetime, rfl, hasks, rfl, hstored, hlifetime, hverified, hlater⟩ :=
        storedIn_run before _ _ (AttestationCache.mem_of_lookup hlookup)
      have hlasts : o.Lasts later c.start := ⟨hverified, ⟨lifetime, hlifetime, hexpires⟩, hstored ▸ hlater⟩
      have hfollows : c.MayFollow o := hsafe _ _ after hsplit earlier o later rfl hlasts
      obtain ⟨hpublicKey, hpcr3, hprovider, hage⟩ := hfollows.question hstored
      refine .inr ⟨earlier, o, later, ttl, rfl, hasks, ?_, hpublicKey, hpcr3, hprovider, httl, hage ttl httl, ?_⟩
      · simp only [hreturned, AttestationCall.resolve, hfound]
      · rw [← hpublicKey]
        apply hlasts.not_forgets earlier
        · intro e he
          have hpairwise := horder.between
          rw [hsplit, List.pairwise_append] at hpairwise
          have heach := horder.each e (by simp [hsplit, he])
          exact heach.trans (hpairwise.2.2 e (by simp [he]) (.verify c) (by simp))
        · rintro front e back rfl
          exact hsafe _ e (back ++ .verify c :: after) (by simp [hsplit])

/-! ### A wallet that is verified twice -/

def attestedWallet : WalletLike :=
  { publicKey := "8qbHbw2BbbTHBW1sbeqakYXVKRQM8Ne7pLK7m6CVfeR", provider := some "turnkey" }

def turnkeyResult : AttestationResult :=
  { status := .cryptographicallyVerified, provider := .turnkey, publicKey := attestedWallet.publicKey, message := "" }

/-- A call that the verifier answers within a second. -/
def callAt (start : Int) (config : AttestationConfig) (wallet : WalletLike) : AttestationCall :=
  { wallet := wallet, config := config, start := start, finish := start + 1000, answer := turnkeyResult }

def pcr3Config : AttestationConfig := { expectedPcr3 := some "b798abfd" }

/-- The answer of the first call is used by the second, after the key of another wallet was deleted. -/
theorem attestation_law_twice :
    let before : List CacheEvent :=
      [.verify (callAt 0 pcr3Config attestedWallet), .delete "7xKXtg2CW87d97TXJSDpbD5jBkheTqA83TZRuJosgAsU" 2000]
    ¬ (callAt 60000 pcr3Config attestedWallet).Asks before ∧
      ProducedFor before (callAt 60000 pcr3Config attestedWallet) turnkeyResult := by
  intro before
  have hfound : ¬ (callAt 60000 pcr3Config attestedWallet).Asks before := by
    have hsome : (((callAt 60000 pcr3Config attestedWallet).lookup (cacheAfter before)).1.map fun a => a.result) =
        some turnkeyResult := by decide +kernel
    intro hasks
    rw [AttestationCall.Asks] at hasks
    rw [hasks] at hsome
    cases hsome
  have hresult : (verifyTeeAttestation (cacheAfter before) (callAt 60000 pcr3Config attestedWallet)).1 =
      .ok turnkeyResult := by decide +kernel
  have horder : InOrder (before ++ [.verify (callAt 60000 pcr3Config attestedWallet)]) := ⟨by decide, by decide⟩
  refine ⟨hfound, attestation_law horder ?_ rfl (by decide) hresult⟩
  intro front e back hsplit
  cases e with
  | clear time => trivial
  | delete publicKey time =>
      intro earlier o later hbefore _ hsame
      rcases front with _ | ⟨e₁, _ | ⟨e₂, _ | ⟨e₃, front⟩⟩⟩
      · cases hsplit
      · cases hsplit
        rcases earlier with _ | ⟨e₁, earlier⟩
        · cases hbefore
          exact absurd hsame (by decide)
        · simp at hbefore
      · cases hsplit
      · simp [before] at hsplit
  | verify c =>
      intro earlier o later hbefore hlasts
      rcases front with _ | ⟨e₁, _ | ⟨e₂, _ | ⟨e₃, front⟩⟩⟩
      · simp at hbefore
      · cases hsplit
      · cases hsplit
        rcases earlier with _ | ⟨e₁, _ | ⟨e₂, earlier⟩⟩
        · cases hbefore
          constructor
          case after => exact fun _ => not_continues_self _
          case before => exact fun _ => not_continues_self _
          case absent => exact fun _ => Iff.rfl
          case provider => exact fun _ => rfl
          case age =>
            rintro - ttl ⟨⟩
            decide +kernel
        · cases hbefore
        · simp at hbefore
      · simp [before] at hsplit

/-! ### An answer that was deleted, is too old, is of another provider, or of another wallet -/

/-- After one call and no other, a result that is found was produced for it. -/
theorem ProducedFor.of_one {o c : AttestationCall} {later : List CacheEvent} {result : AttestationResult}
    (hfound : ¬ c.Asks (.verify o :: later)) (hlater : ∀ o', .verify o' ∉ later)
    (h : ProducedFor (.verify o :: later) c result) :
    o.wallet.publicKey = c.wallet.publicKey ∧ o.detected = c.detected ∧
      (∃ ttl, c.ttl = some ttl ∧ (c.start - o.finish : ℚ) ≤ ttl) ∧ ∀ e ∈ later, ¬ e.Forgets c.wallet.publicKey := by
  rcases h with ⟨hasks, -⟩ | ⟨earlier, o', later', ttl, hsplit, -, -, hpublicKey, -, hprovider, httl, hage, hkept⟩
  · exact absurd hasks hfound
  · cases earlier with
    | nil =>
        cases hsplit
        exact ⟨hpublicKey, hprovider, ⟨ttl, httl, hage⟩, hkept⟩
    | cons e earlier =>
        cases hsplit
        exact absurd (by simp) (hlater o')

def bareWallet : WalletLike := { attestedWallet with publicKey := attestedWallet.publicKey ++ "|pcr3=b798abfd" }

def privyWallet : WalletLike := { attestedWallet with provider := some "privy" }

/-- The results come out of the cache, and none was produced for its call. -/
theorem attestation_law_violated :
    (let before := [.verify (callAt 0 pcr3Config attestedWallet), .delete attestedWallet.publicKey 2000]
     let c := callAt 60000 pcr3Config attestedWallet
     (verifyTeeAttestation (cacheAfter before) c).1 = .ok turnkeyResult ∧ ¬ ProducedFor before c turnkeyResult) ∧
    (let before := [.verify (callAt 0 {} attestedWallet)]
     let c := callAt 60000 { cacheTtlMs := some (some 1000) } attestedWallet
     (verifyTeeAttestation (cacheAfter before) c).1 = .ok turnkeyResult ∧ ¬ ProducedFor before c turnkeyResult) ∧
    (let before := [.verify (callAt 0 {} attestedWallet)]
     let c := callAt 60000 {} privyWallet
     (verifyTeeAttestation (cacheAfter before) c).1 = .ok turnkeyResult ∧ ¬ ProducedFor before c turnkeyResult) ∧
    (let before := [.verify (callAt 0 pcr3Config attestedWallet)]
     let c := callAt 60000 {} bareWallet
     (verifyTeeAttestation (cacheAfter before) c).1 = .ok turnkeyResult ∧ ¬ ProducedFor before c turnkeyResult) := by
  have hmiss {before : List CacheEvent} {c : AttestationCall}
      (h : ((c.lookup (cacheAfter before)).1.map fun a => a.result) = some turnkeyResult) : ¬ c.Asks before := by
    intro hasks
    rw [AttestationCall.Asks] at hasks
    rw [hasks] at h
    cases h
  refine ⟨⟨by decide +kernel, fun h => ?_⟩, ⟨by decide +kernel, fun h => ?_⟩, ⟨by decide +kernel, fun h => ?_⟩,
    ⟨by decide +kernel, fun h => ?_⟩⟩
  · obtain ⟨-, -, -, hkept⟩ := h.of_one (hmiss (by decide +kernel)) (by simp)
    exact hkept (.delete attestedWallet.publicKey 2000) (by simp) rfl
  · obtain ⟨-, -, ⟨ttl, httl, hage⟩, -⟩ := h.of_one (hmiss (by decide +kernel)) (by simp)
    have hshort : ttl = 1000 := by
      cases httl
      rfl
    have hold : (callAt 60000 { cacheTtlMs := some (some 1000) } attestedWallet).start -
        (callAt 0 {} attestedWallet).finish = (59000 : ℚ) := by decide +kernel
    rw [hshort, hold] at hage
    norm_num at hage
  · exact absurd (h.of_one (hmiss (by decide +kernel)) (by simp)).2.1 (by decide)
  · exact absurd (h.of_one (hmiss (by decide +kernel)) (by simp)).1 (by decide)

end Sigil.Sdk
