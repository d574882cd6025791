import Sigil.Theorems.Sizes
import Sigil.Theorems.StoredFields

/-!
# The program on bytes

A program on the bytes of its accounts does what the program on their values does. Vaults, policies and pending
updates are of variable length: they are written over what was there before, and what is left of it behind them is
never read.
-/

namespace Sigil

open Library

namespace AddressBook

section
variable (book : AddressBook) {k v : Pubkey} {vault : AgentVault} {policy : PolicyConfig}
  {pending : PendingPolicyUpdate} {n : Nat}

/-! ## Lengths -/

@[simp] theorem pubkey_length (k : Pubkey) : (book.pubkey.encode k).length = pubkeySize := book.bytes_length k

@[simp] theorem agentEntry_length (e : AgentEntry) : (book.agentEntry.encode e).length = agentEntrySize := by
  simp only [agentEntry, Codec.record_length, Codec.pair_length, pubkey_length, Codec.uint_length, Codec.bool_length,
    Codec.padding_length]
  rfl

theorem agentVault_length : (book.agentVault.encode (vault, n)).length = vault.encodedSize := by
  simp only [agentVault, AccountFormat.encode, vaultStatus, List.length_append, List.length_cons, List.length_nil,
    Codec.record_length, Codec.pair_length, Codec.uint_length, Codec.int_length, Codec.enum_length, pubkey_length,
    Codec.vec_length book.agentEntry_length]
  dsimp only [AgentVault.encodedSize, discriminatorSize, Borsh.u8, Borsh.u64, Borsh.i64, Borsh.enum]
  omega

theorem policyConfig_length : (book.policyConfig.encode (policy, v, n)).length = policy.encodedSize := by
  simp only [policyConfig, AccountFormat.encode, List.length_append, List.length_cons, List.length_nil,
    Codec.record_length, Codec.pair_length, Codec.uint_length, Codec.bool_length, pubkey_length,
    Codec.vec_length book.pubkey_length, Codec.vec_length Codec.uint_length]
  dsimp only [PolicyConfig.encodedSize, discriminatorSize, Borsh.u8, Borsh.u16, Borsh.u64, Borsh.bool]
  omega

theorem pendingPolicyUpdate_length :
    (book.pendingPolicyUpdate.encode (pending, v, n)).length = pending.encodedSize := by
  simp only [pendingPolicyUpdate, AccountFormat.encode, List.length_append, List.length_cons, List.length_nil,
    Codec.record_length, Codec.pair_length, Codec.uint_length, Codec.int_length, pubkey_length,
    Codec.option_length Codec.uint_length, Codec.option_length Codec.bool_length,
    Codec.option_length (Codec.vec_length book.pubkey_length), Codec.option_length (Codec.vec_length Codec.uint_length)]
  dsimp only [PendingPolicyUpdate.encodedSize, discriminatorSize, Borsh.u8, Borsh.u16, Borsh.u64, Borsh.i64,
    Borsh.bool]
  omega

/-! ## Values that can be written -/

theorem pubkey_valid : book.pubkey.Valid k ↔ book.Known k := by
  constructor
  · rintro ⟨-, h⟩
    exact Option.some.inj h
  · intro h
    exact ⟨book.bytes_length k, congrArg some h⟩

theorem uint_valid {m x : Nat} (h : x ≤ uMax (8 * m)) : (Codec.uint m).Valid x := by
  have hpow : 256 ^ m = 2 ^ (8 * m) := by
    rw [pow_mul]
    rfl
  rw [Codec.uint_valid_iff, hpow]
  exact Nat.lt_of_le_pred (Nat.two_pow_pos _) h

theorem time_valid {t : Int} (h : TimeFits t) : (Codec.int 8).Valid t := by
  obtain ⟨hlow, hhigh⟩ := h
  dsimp only [i64Min, i64Max] at hlow hhigh
  refine Codec.int_valid ?_ ?_
  · norm_num
    omega
  · norm_num
    omega

theorem vec_valid {α : Type} {c : Codec α} {l : List α} {m : Nat} (h : l.length ≤ m) (hm : m < 256 ^ 4)
    (hl : ∀ a ∈ l, c.Valid a) : c.vec.Valid l := ⟨h.trans_lt hm, hl⟩

theorem agentEntry_valid {e : AgentEntry} (h : e.Stored book.Known) : book.agentEntry.Valid e :=
  Codec.record_valid rfl ⟨book.pubkey_valid.mpr h.pubkey, uint_valid h.capability, uint_valid h.spendingLimit,
    Codec.bool_valid _, trivial⟩

theorem agentVault_valid (h : vault.Stored book.Known) (hbooks : vault.books.Fits) (hn : n ≤ uMax 8)
    (hfits : vault.encodedSize ≤ agentVaultSize) : book.agentVault.codec.Valid (vault, n) := by
  have hagents : book.agentEntry.vec.Valid vault.agents := by
    refine vec_valid (m := agentVaultSize) ?_ (by decide) fun e he => book.agentEntry_valid (h.agents e he)
    dsimp only [AgentVault.encodedSize, Borsh.vec, agentEntrySize, pubkeySize, Borsh.u8, Borsh.u64, Borsh.bool] at hfits
    omega
  have hstatus : vaultStatus.Valid vault.status := by
    refine Codec.enum_valid (by decide) ?_
    cases vault.status <;> simp
  dsimp only [agentVault]
  refine Codec.record_valid rfl ?_
  exact ⟨book.pubkey_valid.mpr h.owner, uint_valid h.vaultId, hagents, book.pubkey_valid.mpr h.feeDestination, hstatus,
    uint_valid hn, time_valid h.createdAt, uint_valid hbooks.transactions, uint_valid hbooks.volume,
    uint_valid h.activeEscrowCount, uint_valid hbooks.fees, uint_valid hbooks.deposited, uint_valid hbooks.withdrawn,
    uint_valid hbooks.failed, uint_valid h.activeSessions⟩

theorem policyConfig_valid (h : policy.Stored book.Known) (hv : book.Known v) (hn : n ≤ uMax 8)
    (hfits : policy.encodedSize ≤ policyConfigSize) : book.policyConfig.codec.Valid (policy, v, n) := by
  have hlists := PolicyConfig.encodedSize_le_iff.mp hfits
  dsimp only [PolicyConfig.listBytes] at hlists
  have hprotocols : book.pubkey.vec.Valid policy.protocols :=
    vec_valid (m := listSpace) (by omega) (by decide) fun k hk => book.pubkey_valid.mpr (h.protocols k hk)
  have hdestinations : book.pubkey.vec.Valid policy.allowedDestinations :=
    vec_valid (m := listSpace) (by omega) (by decide) fun k hk =>
      book.pubkey_valid.mpr (h.allowedDestinations k hk)
  have hcaps : (Codec.uint 8).vec.Valid policy.protocolCaps :=
    vec_valid (m := listSpace) (by omega) (by decide) fun cap hcap => uint_valid (h.protocolCaps cap hcap)
  dsimp only [policyConfig]
  refine Codec.record_valid rfl ?_
  exact ⟨book.pubkey_valid.mpr hv, uint_valid h.dailySpendingCap, uint_valid h.maxTransactionSize,
    uint_valid h.protocolMode, hprotocols, uint_valid h.developerFeeRate, uint_valid h.maxSlippage,
    uint_valid h.timelockDuration, hdestinations, Codec.bool_valid _, Codec.bool_valid _, Codec.bool_valid _, hcaps,
    uint_valid h.sessionExpiry, uint_valid hn, uint_valid h.policyVersion, uint_valid h.hasPostAssertions,
    uint_valid h.destinationMode⟩

/-- A list of a pending update is not longer than the update. -/
theorem option_vec_valid {α : Type} {c : Codec α} {o : Option (List α)} {n : Nat} (hn : 0 < n)
    (hfits : Borsh.option (Borsh.vec n) o ≤ pendingPolicyUpdateSize) (hl : ∀ l, o = some l → ∀ a ∈ l, c.Valid a) :
    c.vec.option.Valid o := by
  rintro l rfl
  have hlength : l.length ≤ n * l.length := Nat.le_mul_of_pos_left _ hn
  refine vec_valid (m := pendingPolicyUpdateSize) ?_ (by decide) (hl l rfl)
  dsimp only [Borsh.option, Borsh.vec, Option.elim_some] at hfits
  omega

theorem pendingPolicyUpdate_valid (h : pending.Stored book.Known) (hv : book.Known v) (hn : n ≤ uMax 8)
    (hfits : pending.encodedSize ≤ pendingPolicyUpdateSize) :
    book.pendingPolicyUpdate.codec.Valid (pending, v, n) := by
  have huint : ∀ {m : Nat} {o : Option Nat}, (∀ x, o = some x → x ≤ uMax (8 * m)) → (Codec.uint m).option.Valid o :=
    fun ho x hx => uint_valid (ho x hx)
  have hprotocols : book.pubkey.vec.option.Valid pending.protocols :=
    option_vec_valid (n := pubkeySize) (by decide) (by dsimp only [PendingPolicyUpdate.encodedSize] at hfits; omega)
      fun l hl k hk => book.pubkey_valid.mpr (h.protocols l hl k hk)
  have hdestinations : book.pubkey.vec.option.Valid pending.allowedDestinations :=
    option_vec_valid (n := pubkeySize) (by decide) (by dsimp only [PendingPolicyUpdate.encodedSize] at hfits; omega)
      fun l hl k hk => book.pubkey_valid.mpr (h.allowedDestinations l hl k hk)
  have hcaps : (Codec.uint 8).vec.option.Valid pending.protocolCaps :=
    option_vec_valid (n := Borsh.u64) (by decide) (by dsimp only [PendingPolicyUpdate.encodedSize] at hfits; omega)
      fun l hl cap hcap => uint_valid (h.protocolCaps l hl cap hcap)
  dsimp only [pendingPolicyUpdate]
  refine Codec.record_valid rfl ?_
  exact ⟨book.pubkey_valid.mpr hv, time_valid h.queuedAt, time_valid h.executesAt, uint_valid h.queuedAtSlot,
    huint h.dailySpendingCap, huint h.maxTransactionAmount, huint h.protocolMode, hprotocols,
    huint h.developerFeeRate, huint h.maxSlippage, huint h.timelockDuration, hdestinations, huint h.sessionExpiry,
    fun b _ => Codec.bool_valid b, hcaps, huint h.destinationMode, uint_valid hn⟩

end

end AddressBook

/-! ## Bytes of a state -/

namespace ByteWorld

/-- The bytes of the accounts of a vault begin with their values, and every account has its size. -/
structure HoldsAt (book : AddressBook) (b : ByteWorld) (w : World) (v : Pubkey) : Prop where
  vault : book.agentVault.Keeps (b.vaultData v) ((w.vaults v).map fun vault => (vault, (book.bump v).toNat))
  policy : book.policyConfig.Keeps (b.policyData v)
    ((w.policies v).map fun policy => (policy, v, (book.bump (.policy v)).toNat))
  pending : book.pendingPolicyUpdate.Keeps (b.pendingPolicyData v)
    ((w.pendingPolicies v).map fun pending => (pending, v, (book.bump (.pendingPolicy v)).toNat))

structure Holds (book : AddressBook) (b : ByteWorld) (w : World) : Prop where
  others : b.others = w.bare
  accounts : ∀ v, b.HoldsAt book w v

end ByteWorld

/-- What the values of a state have to fulfil to be written. -/
structure World.Writable (book : AddressBook) (w : World) : Prop where
  stored : w.Stored book.Known
  books : ∀ v vault, w.vaults v = some vault → vault.books.Fits
  policy_known : ∀ v policy, w.policies v = some policy → book.Known v
  pending_known : ∀ v pending, w.pendingPolicies v = some pending → book.Known v

section
variable {book : AddressBook} {b b' : ByteWorld} {w w' : World} {v y : Pubkey} {st : Step} {steps : List Step}

theorem bump_le (x : Pubkey) : (book.bump x).toNat ≤ uMax 8 := toNat_le_uMax8 _

namespace ByteWorld

theorem Holds.read (h : b.Holds book w) : b.read book = w := by
  have hvaults : (fun v => ((b.vaultData v).bind book.agentVault.load).map Prod.fst) = w.vaults := by
    funext v
    rw [(h.accounts v).vault.load, Option.map_map]
    cases w.vaults v <;> rfl
  have hpolicies : (fun v => ((b.policyData v).bind book.policyConfig.load).map Prod.fst) = w.policies := by
    funext v
    rw [(h.accounts v).policy.load, Option.map_map]
    cases w.policies v <;> rfl
  have hpending : (fun v => ((b.pendingPolicyData v).bind book.pendingPolicyUpdate.load).map Prod.fst) =
      w.pendingPolicies := by
    funext v
    rw [(h.accounts v).pending.load, Option.map_map]
    cases w.pendingPolicies v <;> rfl
  rw [ByteWorld.read, h.others, hvaults, hpolicies, hpending]
  rfl

theorem HoldsAt.congr (h : b.HoldsAt book w v) (hvault : b'.vaultData v = b.vaultData v)
    (hpolicy : b'.policyData v = b.policyData v) (hpending : b'.pendingPolicyData v = b.pendingPolicyData v) :
    b'.HoldsAt book w v := by
  refine ⟨?_, ?_, ?_⟩
  · rw [hvault]
    exact h.vault
  · rw [hpolicy]
    exact h.policy
  · rw [hpending]
    exact h.pending

/-- The accounts of a vault are written if and only if all of them fit. -/
theorem write_cases (h : b.HoldsAt book w v) (hw' : w'.Writable book) :
    (∃ b', b.write book w' v = some b' ∧ b'.others = b.others ∧ b'.HoldsAt book w' v ∧ w'.fits v ∧
        ∀ y u, y ≠ v → b.HoldsAt book u y → b'.HoldsAt book u y) ∨
      b.write book w' v = none ∧ ¬ w'.fits v := by
  rw [World.fits_iff, ByteWorld.write]
  rcases AccountFormat.writeBack_cases (p := w'.vaults v) h.vault (fun vault hv hroom => book.agentVault_valid
      (hw'.stored.vaults v vault hv).2 (hw'.books v vault hv) (bump_le v) (book.agentVault_length ▸ hroom)) with
    ⟨vaultData, hvault, hvaultKept, hvaultFits⟩ | ⟨hvault, vault, hv, hlong⟩
  · rcases AccountFormat.writeBack_cases (p := w'.policies v) h.policy (fun policy hp hroom =>
        book.policyConfig_valid ((hw'.stored.configs v).policy policy hp) (hw'.policy_known v policy hp) (bump_le _)
          (book.policyConfig_length ▸ hroom)) with
      ⟨policyData, hpolicy, hpolicyKept, hpolicyFits⟩ | ⟨hpolicy, policy, hp, hlong⟩
    · rcases AccountFormat.writeBack_cases (p := w'.pendingPolicies v) h.pending (fun pending hp hroom =>
          book.pendingPolicyUpdate_valid ((hw'.stored.configs v).pending pending hp) (hw'.pending_known v pending hp)
            (bump_le _) (book.pendingPolicyUpdate_length ▸ hroom)) with
        ⟨pendingData, hpending, hpendingKept, hpendingFits⟩ | ⟨hpending, pending, hp, hlong⟩
      · left
        let written : ByteWorld :=
          { b with
            vaultData := Function.update b.vaultData v vaultData
            policyData := Function.update b.policyData v policyData
            pendingPolicyData := Function.update b.pendingPolicyData v pendingData }
        have hwritten : written.HoldsAt book w' v :=
          ⟨by simpa [written] using hvaultKept, by simpa [written] using hpolicyKept,
            by simpa [written] using hpendingKept⟩
        refine ⟨written, by rw [hvault, hpolicy, hpending]; rfl, rfl, hwritten, ⟨?_, ?_, ?_⟩, fun y u hne hy => ?_⟩
        · exact fun vault hv => book.agentVault_length ▸ hvaultFits vault hv
        · exact fun policy hp => book.policyConfig_length ▸ hpolicyFits policy hp
        · exact fun pending hp => book.pendingPolicyUpdate_length ▸ hpendingFits pending hp
        · exact hy.congr (Function.update_of_ne hne ..) (Function.update_of_ne hne ..) (Function.update_of_ne hne ..)
      · rw [book.pendingPolicyUpdate_length] at hlong
        exact .inr ⟨by rw [hvault, hpolicy, hpending]; rfl, fun hfits => hlong.not_ge (hfits.2.2 pending hp)⟩
    · rw [book.policyConfig_length] at hlong
      exact .inr ⟨by rw [hvault, hpolicy]; rfl, fun hfits => hlong.not_ge (hfits.2.1 policy hp)⟩
  · rw [book.agentVault_length] at hlong
    exact .inr ⟨by rw [hvault]; rfl, fun hfits => hlong.not_ge (hfits.1 vault hv)⟩

/-- Writing the accounts of several vaults. The accounts of the others are in place. -/
theorem writes_cases {vs : List Pubkey} (hsome : ∀ v, ∃ w, b.HoldsAt book w v)
    (hrest : ∀ v, v ∉ vs → b.HoldsAt book w' v) (hw' : w'.Writable book) :
    (∃ b', vs.foldlM (fun b v => b.write book w' v) b = some b' ∧ b'.others = b.others ∧
        (∀ v, b'.HoldsAt book w' v) ∧ ∀ v ∈ vs, w'.fits v) ∨
      vs.foldlM (fun b v => b.write book w' v) b = none ∧ ∃ v ∈ vs, ¬ w'.fits v := by
  induction vs generalizing b with
  | nil => exact .inl ⟨b, rfl, rfl, fun v => hrest v (by simp), by simp⟩
  | cons x vs ih =>
      obtain ⟨w, hx⟩ := hsome x
      rw [List.foldlM_cons]
      rcases write_cases hx hw' with ⟨b₁, hwrite, hothers, hwritten, hfits, hframe⟩ | ⟨hwrite, hfits⟩
      · have hsome₁ : ∀ v, ∃ w, b₁.HoldsAt book w v := by
          intro v
          rcases eq_or_ne v x with rfl | hne
          · exact ⟨w', hwritten⟩
          · obtain ⟨u, hu⟩ := hsome v
            exact ⟨u, hframe v u hne hu⟩
        have hrest₁ : ∀ v, v ∉ vs → b₁.HoldsAt book w' v := by
          intro v hv
          rcases eq_or_ne v x with rfl | hne
          · exact hwritten
          · exact hframe v w' hne (hrest v (by simp [hne, hv]))
        rw [hwrite]
        rcases ih hsome₁ hrest₁ with ⟨b', hwrites, hothers', hall, hfits'⟩ | ⟨hwrites, v, hv, hfits'⟩
        · exact .inl ⟨b', hwrites, hothers'.trans hothers, hall, List.forall_mem_cons.mpr ⟨hfits, hfits'⟩⟩
        · exact .inr ⟨hwrites, v, List.mem_cons_of_mem x hv, hfits'⟩
      · rw [hwrite]
        exact .inr ⟨rfl, x, List.mem_cons_self, hfits⟩

end ByteWorld

/-! ## Steps and runs -/

theorem Step.vaults_frame (h : st.exec w = .ok w') (hv : v ∉ st.vaults) : w'.vaults v = w.vaults v := by
  rcases Step.vaultStep h v with heq | ⟨i, hcall, hchange⟩
  · exact heq
  · rw [Step.vaults, hcall] at hv
    exact hchange.eq_of_ne fun hwritten => hv (Instruction.written_mem hwritten)

theorem Step.execBytes_sameOutcome (h : b.Holds book w) (hwritable : ∀ w', st.exec w = .ok w' → w'.Writable book) :
    SameOutcome (ByteWorld.Holds book) (st.execBytes book b) (st.execSerialized w) := by
  rw [execBytes, execSerialized, h.read]
  cases hexec : st.exec w with
  | error e => exact .error e
  | ok w' =>
      have hrest : ∀ v, v ∉ st.vaults → ({ b with others := w'.bare } : ByteWorld).HoldsAt book w' v := by
        intro v hv
        obtain ⟨hpolicy, hpending⟩ := Step.policy_frame hexec hv
        have hvault := Step.vaults_frame hexec hv
        obtain ⟨hkept, hkeptPolicy, hkeptPending⟩ := h.accounts v
        exact ⟨hvault ▸ hkept, hpolicy ▸ hkeptPolicy, hpending ▸ hkeptPending⟩
      have hsome : ∀ v, ∃ u, ({ b with others := w'.bare } : ByteWorld).HoldsAt book u v :=
        fun v => ⟨w, (h.accounts v).congr rfl rfl rfl⟩
      rcases ByteWorld.writes_cases hsome hrest (hwritable w' hexec) with
        ⟨b', hwrites, hothers, hall, hfits⟩ | ⟨hwrites, v, hv, hfits⟩
      · have hserialized : st.execSerialized w = .ok w' := Step.execSerialized_eq_ok.mpr ⟨hexec, hfits⟩
        rw [execSerialized, hexec] at hserialized
        rw [hserialized]
        show SameOutcome _ (okOr _ _) _
        rw [hwrites]
        exact .ok ⟨hothers, hall⟩
      · have hall : ¬ st.vaults.all w'.fits := fun hall => hfits (List.all_eq_true.mp hall v hv)
        show SameOutcome _ (okOr _ _) (require _ _ >>= fun _ => pure w')
        rw [hwrites, require, if_neg hall]
        exact .error _

/-- What a reachable state holds can be written, if no two addresses that its run has named have the same bytes. -/
theorem writable_run (h : run Step.exec steps {} = .ok w) (hknown : ∀ st ∈ steps, ∀ k ∈ st.addresses, book.Known k) :
    w.Writable book := by
  have hstored := stored_run h hknown
  have hpolicy : ∀ v policy, w.policies v = some policy → book.Known v := by
    intro v policy hp
    have hlive : (w.vaults v).isSome = (w.policies v).isSome := (policyInv_run h v).live
    obtain ⟨vault, hv⟩ := Option.isSome_iff_exists.mp (hlive.trans (by simp [hp]))
    exact (hstored.vaults v vault hv).1
  refine ⟨hstored, fun v vault hv => ?_, hpolicy, fun v pending hp => ?_⟩
  · obtain ⟨hbooks, hfits⟩ := books_run h vault hv
    exact hbooks ▸ hfits
  · cases hfound : w.policies v with
    | some policy => exact hpolicy v policy hfound
    | none =>
        have hnone : w.pendingPolicies v = none := (policyInv_run h v).dead hfound
        rw [hnone] at hp
        cases hp

theorem ByteWorld.holds_empty : ({} : ByteWorld).Holds book {} where
  others := rfl
  accounts _ := ⟨.none, .none, .none⟩

/-- A program on bytes has the outcome of the program on values, errors included, and every account that it leaves has
its size and begins with its value. -/
theorem bytes_refine (hknown : ∀ st ∈ steps, ∀ k ∈ st.addresses, book.Known k) :
    (run (Step.execBytes book) steps {}).map (ByteWorld.read book) = run Step.execSerialized steps {} ∧
      ∀ b, run (Step.execBytes book) steps {} = .ok b → b.Holds book (b.read book) := by
  have hsame : SameOutcome (ByteWorld.Holds book) (run (Step.execBytes book) steps {})
      (run Step.execSerialized steps {}) := by
    refine run_sameOutcome ByteWorld.holds_empty ?_
    intro before st after w₁ b₁ hsplit hrun hholds
    refine Step.execBytes_sameOutcome hholds fun w' hexec => ?_
    have hrun' : run Step.exec (before ++ [st]) {} = .ok w' :=
      run_concat_eq_ok.mpr ⟨w₁, run_execSerialized hrun, hexec⟩
    refine writable_run hrun' fun st' hst' => hknown st' ?_
    rw [hsplit]
    exact List.mem_append.mpr ((List.mem_append.mp hst').imp_right fun hlast => by simp [List.mem_singleton.mp hlast])
  refine ⟨hsame.map fun b w h => h.read, fun b hb => ?_⟩
  rw [hb] at hsame
  generalize run Step.execSerialized steps {} = outcome at hsame
  cases hsame with
  | ok h => exact h.read.symm ▸ h

end

/-! ## Bytes that nobody wrote -/

namespace AddressBook

variable (book : AddressBook)

theorem pubkey_canonical : book.pubkey.Canonical := Codec.fixed_canonical.pmap

theorem policyConfig_canonical : book.policyConfig.codec.Canonical := by
  have hkey := book.pubkey_canonical
  have huint : ∀ n, (Codec.uint n).Canonical := fun n => Codec.uint_canonical
  have hbool := Codec.bool_canonical
  dsimp only [policyConfig]
  apply Codec.Canonical.record
  exact hkey.pair <| (huint 8).pair <| (huint 8).pair <| (huint 1).pair <| hkey.vec.pair <| (huint 2).pair <|
    (huint 2).pair <| (huint 8).pair <| hkey.vec.pair <| hbool.pair <| hbool.pair <| hbool.pair <|
    (huint 8).vec.pair <| (huint 8).pair <| (huint 1).pair <| (huint 8).pair <| (huint 1).pair (huint 1)

theorem pendingPolicyUpdate_canonical : book.pendingPolicyUpdate.codec.Canonical := by
  have hkey := book.pubkey_canonical
  have huint : ∀ n, (Codec.uint n).Canonical := fun n => Codec.uint_canonical
  have hint := Codec.int_canonical (n := 8)
  dsimp only [pendingPolicyUpdate]
  apply Codec.Canonical.record
  exact hkey.pair <| hint.pair <| hint.pair <| (huint 8).pair <| (huint 8).option.pair <| (huint 8).option.pair <|
    (huint 1).option.pair <| hkey.vec.option.pair <| (huint 2).option.pair <| (huint 2).option.pair <|
    (huint 8).option.pair <| hkey.vec.option.pair <| (huint 8).option.pair <| Codec.bool_canonical.option.pair <|
    (huint 8).vec.option.pair <| (huint 1).option.pair (huint 1)

end AddressBook

/-- Whatever the bytes of a policy or a pending update are, to load it and to store what was loaded changes none. -/
theorem policy_bytes_kept (book : AddressBook) (data : List UInt8) :
    (∀ a, book.policyConfig.load data = some a → book.policyConfig.store a data = some data) ∧
      ∀ a, book.pendingPolicyUpdate.load data = some a → book.pendingPolicyUpdate.store a data = some data :=
  ⟨fun _ h => AccountFormat.store_of_load book.policyConfig_canonical h,
    fun _ h => AccountFormat.store_of_load book.pendingPolicyUpdate_canonical h⟩

/-! ### The bytes of a run of owner 1 -/

/-- The vault of owner 1 with id 0. -/
def payAddress : List UInt8 :=
  [161, 197, 173, 48, 94, 89, 102, 72, 183, 77, 113, 118, 149, 111, 20, 84, 226, 178, 151, 27, 34, 64, 201, 74, 134, 11,
   110, 184, 56, 175, 219, 127]

def Pubkey.number : Pubkey → Nat
  | .key n => n
  | _ => 0

/-- A key is the number that its bytes spell, most significant first. -/
def payBook : AddressBook where
  bytes k := if k = payVault.vault then payAddress else (leDigits 32 k.number).reverse
  resolve l := if l = payAddress then payVault.vault else .key (leValue l.reverse)
  bump k := if k = payVault.vault then 253 else if k = .pendingPolicy payVault.vault then 254 else 255
  bytes_length k := by
    split
    · rfl
    · rw [List.length_reverse, leDigits_length]
  bytes_resolve l hl := by
    by_cases heq : l = payAddress
    · rw [if_pos heq, if_pos rfl, heq]
    · have hkey : Pubkey.key (leValue l.reverse) ≠ payVault.vault := by rintro ⟨⟩
      have hdigits := leDigits_leValue l.reverse
      rw [List.length_reverse, show l.length = 32 from hl] at hdigits
      rw [if_neg heq, if_neg hkey, Pubkey.number, hdigits, List.reverse_reverse]

/-- The policy of owner 1, with eighty stale bytes behind it. -/
theorem policy_bytes_kept_pay : ∃ data a, payBook.policyConfig.load data = some a ∧ a.1 = payVault.policy ∧
    payBook.policyConfig.store a data = some data := by
  let data := payBook.policyConfig.encode (payVault.policy, payVault.vault, 255) ++ List.replicate 80 7
  have hload : payBook.policyConfig.load data = some (payVault.policy, payVault.vault, 255) := by decide +kernel
  exact ⟨data, _, hload, rfl, (policy_bytes_kept payBook data).1 _ hload⟩

theorem bytes_refine_pay : ∃ b data, run (Step.execBytes payBook) payRun {} = .ok b ∧
    b.vaultData payVault.vault = some data ∧ data.length = 634 ∧
      .ok (b.read payBook) = run Step.execSerialized payRun {} := by
  have hknown : ∀ st ∈ payRun, ∀ k ∈ st.addresses, payBook.Known k := by
    unfold AddressBook.Known
    decide +kernel
  obtain ⟨hread, hholds⟩ := bytes_refine hknown
  obtain ⟨w, vault, hrun, hv⟩ : ∃ w vault, run Step.execSerialized payRun {} = .ok w ∧
      w.vaults payVault.vault = some vault := ⟨_, _, rfl, rfl⟩
  rw [hrun] at hread ⊢
  cases hbytes : run (Step.execBytes payBook) payRun {} with
  | error e => simp [hbytes, Except.map] at hread
  | ok b =>
      obtain rfl : b.read payBook = w := by simpa [hbytes, Except.map] using hread
      have hkept := ((hholds b hbytes).accounts payVault.vault).vault
      rw [hv, Option.map_some] at hkept
      generalize hdata : b.vaultData payVault.vault = o at hkept
      cases hkept with
      | @some data _ h => exact ⟨b, data, rfl, hdata, h.size, rfl⟩

end Sigil
