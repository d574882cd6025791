import Mathlib.Data.List.Nodup
import Sigil.Sdk.CompiledMessage

/-!
# Accounts of compiled transactions

The runtime numbers the entries of all lookup tables, and the extraction those of the tables that are cached. An index
is resolved as by the runtime if both count the same entries before it.
-/

namespace Sigil.Sdk

/-! ## The runtime -/

/-- An entry of a lookup table that a message names. -/
structure TableEntry where
  table : Pubkey
  index : Nat
  deriving DecidableEq

def AddressTableLookup.entries (indexes : AddressTableLookup → List Nat) (lookup : AddressTableLookup) :
    List TableEntry :=
  (indexes lookup).map fun index => { table := lookup.lookupTableAddress, index }

namespace CompiledMessage

/-- All writable entries come first, then all others. -/
def tableEntries (msg : CompiledMessage) : List TableEntry :=
  msg.addressTableLookups.flatMap (AddressTableLookup.entries AddressTableLookup.writableIndexes) ++
    msg.addressTableLookups.flatMap (AddressTableLookup.entries AddressTableLookup.readonlyIndexes)

/-- `tables` is what the chain holds. -/
def runtimeAddress (tables : Pubkey → List Pubkey) (msg : CompiledMessage) (i : Nat) : Option Pubkey :=
  if i < msg.staticAccounts.length then msg.staticAccounts[i]?
  else (msg.tableEntries[i - msg.staticAccounts.length]?).bind fun entry => (tables entry.table)[entry.index]?

/-- Every entry is there, and no account is there twice. -/
def Loadable (tables : Pubkey → List Pubkey) (msg : CompiledMessage) : Prop :=
  ∃ loaded, (msg.tableEntries.map fun entry => (tables entry.table)[entry.index]?) = loaded.map some ∧
    (msg.staticAccounts ++ loaded).Nodup

end CompiledMessage

/-! ## The extraction -/

section
variable {tables : Pubkey → List Pubkey} {altCache : Option AltCache} {msg : CompiledMessage} {i : Nat}

/-- What is cached of a table; without a cache nothing is. -/
def cachedTable (altCache : Option AltCache) (table : Pubkey) : Option (List Pubkey) :=
  altCache.bind fun cache => cache table

/-- A lookup table only ever grows. -/
def Cached (tables : Pubkey → List Pubkey) (altCache : Option AltCache) : Prop :=
  ∀ table resolved, cachedTable altCache table = some resolved → resolved <+: tables table

/-- The entries that the extraction counts. -/
def CompiledMessage.cachedEntries (msg : CompiledMessage) (altCache : Option AltCache) : List TableEntry :=
  msg.tableEntries.filter fun entry => (cachedTable altCache entry.table).isSome

def TableEntry.read (altCache : Option AltCache) (entry : TableEntry) : TableRead :=
  { resolved := (cachedTable altCache entry.table).getD [], index := entry.index }

theorem passReads_eq {cache : AltCache} {indexes : AddressTableLookup → List Nat} {lookups : List AddressTableLookup} :
    CompiledMessage.passReads cache indexes lookups =
      ((lookups.flatMap (AddressTableLookup.entries indexes)).filter fun entry =>
        (cachedTable (some cache) entry.table).isSome).map (TableEntry.read (some cache)) := by
  induction lookups with
  | nil => rfl
  | cons lookup lookups ih =>
      rw [CompiledMessage.passReads, List.flatMap_cons, ← CompiledMessage.passReads, ih, List.flatMap_cons,
        List.filter_append, List.map_append]
      congr 1
      cases hcached : cache lookup.lookupTableAddress with
      | none => simp [AddressTableLookup.entries, cachedTable, hcached]
      | some resolved =>
          simp [AddressTableLookup.entries, cachedTable, hcached, TableEntry.read, List.filter_map, Function.comp_def]

theorem tableReads_eq : msg.tableReads altCache = (msg.cachedEntries altCache).map (TableEntry.read altCache) := by
  cases altCache with
  | none => simp [CompiledMessage.tableReads, CompiledMessage.cachedEntries, cachedTable]
  | some cache =>
      rw [CompiledMessage.tableReads, CompiledMessage.cachedEntries, CompiledMessage.tableEntries, List.filter_append,
        List.map_append, passReads_eq, passReads_eq]

theorem accountTable_getElem? : (msg.accountTable altCache)[i]? =
    if i < msg.staticAccounts.length then msg.staticAccounts[i]?
    else ((msg.cachedEntries altCache)[i - msg.staticAccounts.length]?).map fun entry =>
      (entry.read altCache).address := by
  rw [CompiledMessage.accountTable, tableReads_eq]
  split
  · rename_i hstatic
    exact List.getElem?_append_left hstatic
  · rename_i hlookup
    rw [List.getElem?_append_right (Nat.not_lt.mp hlookup), List.map_map, List.getElem?_map]
    rfl

/-- The entry is in what is cached of its table. -/
def TableEntry.InBounds (altCache : Option AltCache) (entry : TableEntry) : Prop :=
  entry.index < ((cachedTable altCache entry.table).getD []).length

/-- An index of the message is resolved as by the runtime, or not at all: it is static, or past what is cached, or its
entry is the one that the runtime counts, or the system program stands for the system program. -/
def CompiledMessage.Resolved (tables : Pubkey → List Pubkey) (altCache : Option AltCache) (msg : CompiledMessage)
    (i : Nat) : Prop :=
  msg.staticAccounts.length ≤ i → ∀ entry, (msg.cachedEntries altCache)[i - msg.staticAccounts.length]? = some entry →
    (entry.InBounds altCache ∧ msg.tableEntries[i - msg.staticAccounts.length]? = some entry) ∨
      (¬ entry.InBounds altCache ∧ msg.runtimeAddress tables i = some systemProgramId)

theorem TableEntry.read_of_inBounds {entry : TableEntry} (hcached : Cached tables altCache)
    (h : entry.InBounds altCache) :
    (tables entry.table)[entry.index]? = some (entry.read altCache).address := by
  unfold InBounds at h
  cases htable : cachedTable altCache entry.table with
  | none => simp [htable] at h
  | some resolved =>
      rw [htable, Option.getD_some] at h
      obtain ⟨rest, hrest⟩ := hcached _ _ htable
      rw [← hrest, List.getElem?_append_left h]
      simp only [read, TableRead.address, htable, Option.getD_some]
      rw [List.getElem?_eq_getElem h, Option.getD_some]

theorem TableEntry.read_of_not_inBounds {entry : TableEntry} (h : ¬ entry.InBounds altCache) :
    (entry.read altCache).address = systemProgramId := by
  rw [read, TableRead.address, List.getElem?_eq_none (Nat.not_lt.mp h), Option.getD_none]

theorem TableEntry.warning_eq_nil_iff {entry : TableEntry} :
    (entry.read altCache).warning = [] ↔ entry.InBounds altCache := by
  rw [TableRead.warning]
  split
  · rename_i h
    exact iff_of_true rfl h
  · rename_i h
    exact iff_of_false (List.cons_ne_nil _ _) h

theorem getElem?_of_map_some {α β : Type} {f : α → Option β} {l : List α} {bs : List β} (h : l.map f = bs.map some)
    {j : Nat} {a : α} (ha : l[j]? = some a) : bs[j]? = f a := by
  have hsame := congrArg (fun l => l[j]?) h
  simp only [List.getElem?_map, ha, Option.map_some] at hsame
  cases hb : bs[j]? with
  | none =>
      rw [hb] at hsame
      cases hsame
  | some b =>
      rw [hb] at hsame
      exact (Option.some.inj hsame).symm

/-- The runtime has the address of a cached entry at the place of the entry and at no other. -/
theorem tableEntries_of_loaded {loaded : List Pubkey} {entry : TableEntry} {j : Nat} (hcached : Cached tables altCache)
    (hloaded : (msg.tableEntries.map fun entry => (tables entry.table)[entry.index]?) = loaded.map some)
    (hdistinct : loaded.Nodup) (hmem : entry ∈ msg.tableEntries) (hbounds : entry.InBounds altCache)
    (hhere : loaded[j]? = some (entry.read altCache).address) : msg.tableEntries[j]? = some entry := by
  obtain ⟨k, hk⟩ := List.mem_iff_getElem?.mp hmem
  have hthere : loaded[k]? = some (entry.read altCache).address :=
    (getElem?_of_map_some hloaded hk).trans (TableEntry.read_of_inBounds hcached hbounds)
  have hplace : j = k := by
    obtain ⟨hlt, -⟩ := List.getElem?_eq_some_iff.mp hhere
    exact (List.getElem?_inj hlt hdistinct).mp (hhere.trans hthere.symm)
  rw [hplace]
  exact hk

/-- One index. -/
theorem resolved_iff (hcached : Cached tables altCache) :
    (msg.Resolved tables altCache i →
      ∀ a, (msg.accountTable altCache)[i]? = some a → msg.runtimeAddress tables i = some a) ∧
    (msg.Loadable tables →
      (∀ a, (msg.accountTable altCache)[i]? = some a → msg.runtimeAddress tables i = some a) →
        msg.Resolved tables altCache i) := by
  rw [accountTable_getElem?]
  by_cases hstatic : i < msg.staticAccounts.length
  · rw [if_pos hstatic]
    constructor
    · intro _ a ha
      rw [CompiledMessage.runtimeAddress, if_pos hstatic, ha]
    · intro _ _ hle
      omega
  rw [if_neg hstatic]
  constructor
  · intro hresolved a ha
    obtain ⟨entry, hentry, rfl⟩ := Option.map_eq_some_iff.mp ha
    rcases hresolved (Nat.not_lt.mp hstatic) entry hentry with ⟨hbounds, hsame⟩ | ⟨hbounds, hsystem⟩
    · rw [CompiledMessage.runtimeAddress, if_neg hstatic, hsame, Option.bind_some,
        TableEntry.read_of_inBounds hcached hbounds]
    · rw [hsystem, TableEntry.read_of_not_inBounds hbounds]
  · rintro ⟨loaded, hloaded, hnodup⟩ hfaithful _ entry hentry
    have haddress : msg.runtimeAddress tables i = some (entry.read altCache).address :=
      hfaithful _ (by rw [hentry, Option.map_some])
    by_cases hbounds : entry.InBounds altCache
    · left
      have hmem : entry ∈ msg.tableEntries := List.mem_of_mem_filter (List.mem_of_getElem? hentry)
      have hhere : loaded[i - msg.staticAccounts.length]? = some (entry.read altCache).address := by
        rw [CompiledMessage.runtimeAddress, if_neg hstatic] at haddress
        obtain ⟨e, he, haddress⟩ := Option.bind_eq_some_iff.mp haddress
        exact (getElem?_of_map_some hloaded he).trans haddress
      exact ⟨hbounds, tableEntries_of_loaded hcached hloaded (List.nodup_append.mp hnodup).2.1 hmem hbounds hhere⟩
    · right
      rw [haddress, TableEntry.read_of_not_inBounds hbounds]
      exact ⟨hbounds, rfl⟩

end

/-! ## The whole message -/

/-- Without a warning, every address is the one that the runtime uses, or `undefined`. -/
def Extraction.Faithful (tables : Pubkey → List Pubkey) (msg : CompiledMessage) (extraction : Extraction) : Prop :=
  extraction.warnings = [] → ∀ (k : Nat) (ix : CompiledInstruction) (e : ExtractedInstruction),
    msg.instructions[k]? = some ix → extraction.instructions[k]? = some e →
      (∀ a, e.programAddress = some a → msg.runtimeAddress tables ix.programAddressIndex = some a) ∧
        ∀ (j i : Nat) (a : Pubkey), ix.accountIndices[j]? = some i → e.accounts[j]? = some (some a) →
          msg.runtimeAddress tables i = some a

def CompiledInstruction.indices (ix : CompiledInstruction) : List Nat := ix.programAddressIndex :: ix.accountIndices

namespace CompiledMessage

/-- There is no cache at all, or a cached table is too short and the caller collects warnings. -/
def Warned (altCache : Option AltCache) (collected : Bool) (msg : CompiledMessage) : Prop :=
  match altCache with
  | none => msg.addressTableLookups ≠ []
  | some _ => collected ∧ ∃ entry ∈ msg.cachedEntries altCache, ¬ entry.InBounds altCache

/-- Every index that an instruction uses is resolved, unless nothing is returned or a warning comes with it. -/
def Traceable (tables : Pubkey → List Pubkey) (altCache : Option AltCache) (collected : Bool) (msg : CompiledMessage) :
    Prop :=
  msg.staticAccounts = [] ∨ msg.Warned altCache collected ∨
    ∀ ix ∈ msg.instructions, ∀ i ∈ ix.indices, msg.Resolved tables altCache i

section
variable {tables : Pubkey → List Pubkey} {altCache : Option AltCache} {collected : Bool} {msg : CompiledMessage}

theorem warnings_eq_nil_iff : msg.warnings altCache collected = [] ↔ ¬ msg.Warned altCache collected := by
  cases altCache with
  | none => simp [warnings, Warned]
  | some cache =>
      rw [warnings, tableReads_eq, Warned]
      cases collected with
      | false => simp
      | true =>
          simp only [if_true, List.flatMap_eq_nil_iff, List.forall_mem_map, TableEntry.warning_eq_nil_iff, true_and,
            not_exists, not_and, not_not]

/-- What the instructions need, index by index. -/
theorem faithful_iff (hstatic : msg.staticAccounts ≠ []) (hquiet : ¬ msg.Warned altCache collected) :
    (msg.extractInstructions altCache collected).Faithful tables msg ↔
      ∀ ix ∈ msg.instructions, ∀ i ∈ ix.indices, ∀ a,
        (msg.accountTable altCache)[i]? = some a → msg.runtimeAddress tables i = some a := by
  by_cases hnone : msg.instructions = []
  · simp [Extraction.Faithful, hnone]
  have hwarnings := warnings_eq_nil_iff.mpr hquiet
  simp only [Extraction.Faithful, extractInstructions, hstatic, hnone, or_self, if_false, hwarnings, true_implies]
  constructor
  · intro h ix hix i hi a ha
    obtain ⟨k, hk⟩ := List.mem_iff_getElem?.mp hix
    obtain ⟨hprogram, haccounts⟩ := h k ix (msg.extractInstruction altCache ix) hk (by simp [hk])
    rcases List.mem_cons.mp hi with rfl | hi
    · exact hprogram a ha
    · obtain ⟨j, hj⟩ := List.mem_iff_getElem?.mp hi
      exact haccounts j i a hj (by simp [extractInstruction, hj, ha])
  · intro h k ix e hix he
    have hmem := List.mem_of_getElem? hix
    obtain rfl : msg.extractInstruction altCache ix = e := by simpa [hix] using he
    refine ⟨h ix hmem _ List.mem_cons_self, fun j i a hi ha => ?_⟩
    apply h ix hmem i (List.mem_cons_of_mem _ (List.mem_of_getElem? hi)) a
    simpa [extractInstruction, hi] using ha

end

end CompiledMessage

/-- An address is reported as the runtime has it if every index is resolved or a warning is emitted, and, of messages
that the runtime loads, only then. -/
theorem extraction_faithful_iff {tables : Pubkey → List Pubkey} {altCache : Option AltCache}
    (hcached : Cached tables altCache) (msg : CompiledMessage) (collected : Bool) :
    (msg.Traceable tables altCache collected →
        (msg.extractInstructions altCache collected).Faithful tables msg) ∧
      (msg.Loadable tables → (msg.extractInstructions altCache collected).Faithful tables msg →
        msg.Traceable tables altCache collected) := by
  by_cases hstatic : msg.staticAccounts = []
  · constructor
    · intro _
      simp [Extraction.Faithful, CompiledMessage.extractInstructions, hstatic]
    · exact fun _ _ => .inl hstatic
  by_cases hwarned : msg.Warned altCache collected
  · constructor
    · intro _ hnone
      have hwarnings := mt CompiledMessage.warnings_eq_nil_iff.mp (not_not.mpr hwarned)
      intro k ix e hix he
      have hsome : msg.instructions ≠ [] := by
        rintro hnil
        simp [hnil] at hix
      rw [CompiledMessage.extractInstructions, if_neg (by simp [hstatic, hsome])] at hnone
      exact absurd hnone hwarnings
    · exact fun _ _ => .inr (.inl hwarned)
  rw [CompiledMessage.faithful_iff hstatic hwarned]
  constructor
  · rintro (hnil | hwarned' | hresolved) ix hix i hi
    · exact absurd hnil hstatic
    · exact absurd hwarned' hwarned
    · exact (resolved_iff hcached).1 (hresolved ix hix i hi)
  · intro hload h
    exact .inr (.inr fun ix hix i hi => (resolved_iff hcached).2 hload (h ix hix i hi))

/-! ### Two tables, of which the second one is cached -/

def twoTables : Pubkey → List Pubkey
  | .key 20 => [.key 21, .key 22]
  | .key 30 => [.key 31, .key 32]
  | _ => []

def onlyCached (table : Nat) : AltCache := fun address =>
  if address = .key table then some (twoTables address) else none

/-- One writable entry of each table; the instruction names the first. -/
def tableMessage : CompiledMessage :=
  { staticAccounts := [.key 1, splTokenProgramId]
    addressTableLookups :=
      [{ lookupTableAddress := .key 20, writableIndexes := [0], readonlyIndexes := [] },
       { lookupTableAddress := .key 30, writableIndexes := [1], readonlyIndexes := [] }]
    instructions := [{ programAddressIndex := 1, accountIndices := [0, 2], data := [] }] }

theorem onlyCached_cached (table : Nat) : Cached twoTables (some (onlyCached table)) := by
  intro address resolved h
  obtain ⟨-, rfl⟩ := Option.ite_some_none_eq_some.mp (h : onlyCached table address = some resolved)
  exact List.prefix_rfl

/-- With the first table in the cache the account is the one that the runtime uses. -/
theorem extraction_faithful_first :
    (tableMessage.extractInstructions (some (onlyCached 20)) true).Faithful twoTables tableMessage := by
  refine (extraction_faithful_iff (onlyCached_cached 20) tableMessage true).1 (.inr (.inr ?_))
  intro ix hix i hi
  obtain rfl := List.mem_singleton.mp hix
  intro hle entry hentry
  obtain rfl : i = 2 := by
    have hi : i ∈ [1, 0, 2] := hi
    have hle : 2 ≤ i := hle
    simp at hi
    omega
  obtain rfl : entry = { table := .key 20, index := 0 } := Option.some.inj (hentry.symm.trans rfl)
  exact .inl ⟨Nat.two_pos, rfl⟩

/-- An entry of the second table is reported for one of the first, without a warning. -/
theorem extraction_shifted : ¬ ∀ (tables : Pubkey → List Pubkey) (altCache : Option AltCache) (msg : CompiledMessage)
    (collected : Bool), Cached tables altCache → (msg.extractInstructions altCache collected).Faithful tables msg := by
  intro h
  have hfaithful := h twoTables (some (onlyCached 30)) tableMessage true (onlyCached_cached 30) rfl 0
    { programAddressIndex := 1, accountIndices := [0, 2], data := [] }
    { programAddress := some splTokenProgramId, accounts := [some (.key 1), some (.key 32)], data := [] } rfl
    (by decide +kernel)
  exact absurd (hfaithful.2 1 2 (.key 32) rfl rfl) (by decide)

end Sigil.Sdk
