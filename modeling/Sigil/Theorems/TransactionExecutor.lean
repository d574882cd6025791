import Mathlib.Data.List.ReduceOption
import Sigil.Sdk.TransactionExecutor

/-!
# Nothing unchecked is signed

Any number of calls of `executeTransaction` run on one executor, in any interleaving and with any answers. What a call
has the signer sign is its own transaction, and a simulation has found that it succeeds and does not drain a vault that
it lists. A call sends once at most, it returns a signature that the node has confirmed, and it fails for a reason.
-/

namespace Sigil.Sdk

open Library

abbrev ExecutorEntry : Type := AsyncFunction.Entry ExecuteCall ExecutorWait ExecutorAnswer ExecuteOutcome

abbrev ExecutorLog : Type := List ExecutorEntry

section
variable {env : ExecutorEnv} {p : ExecuteTransactionParams} {blockhash : Blockhash} {tx : ComposedTransaction}

/-! ## Composing -/

theorem composed_ok {w : ExecutorWait} (h : env.composed p blockhash = .ok w) :
    ∃ tx, env.composeTransaction p blockhash = .ok tx ∧
      (env.skips = true ∧ w = .signature tx none ∨ env.skips = false ∧ w = .simulation tx) := by
  simp only [ExecutorEnv.composed, bind_eq_ok] at h
  obtain ⟨tx, hcompose, h⟩ := h
  refine ⟨tx, hcompose, ?_⟩
  split at h
  · next hskips =>
      simp only [ExecutorEnv.sign, bind_eq_ok, pure_eq_ok] at h
      obtain ⟨_, -, rfl⟩ := h
      exact .inl ⟨hskips, rfl⟩
  · next hskips => exact .inr ⟨Bool.not_eq_true _ ▸ hskips, (pure_eq_ok.mp h).symm⟩

theorem simulated_ok {w : ExecutorWait} {result : Option SimulationResult} (h : env.simulated p tx result = .ok w) :
    ∃ simulation tx', result = some simulation ∧ env.recompose p tx simulation = .ok tx' ∧
      .fullDrain ∉ simulation.riskFlags ∧ w = .signature tx' (some simulation) := by
  simp only [ExecutorEnv.simulated, ExecutorEnv.sign, bind_eq_ok, okOr_eq_ok, require_eq_ok, pure_eq_ok] at h
  obtain ⟨simulation, hresult, tx', hrecompose, _, hflags, _, -, rfl⟩ := h
  exact ⟨simulation, tx', hresult, hrecompose, hflags, rfl⟩

end

/-! ## What the log says of a call -/

/-- What a call hands to the node when it reaches a stage. -/
def ExecutorStage.sends (s : ExecutorStage) : Option (List UInt8) :=
  match s with
  | .waits (.send wire _) => some wire
  | _ => none

/-- Transactions that a call has sent. -/
def sentBy (log : ExecutorLog) (i : Nat) : List (List UInt8) :=
  log.filterMap fun e => if e.call = i then ExecutorStage.sends e.stage else none

/-- A call has got an answer. -/
def Answered (log : ExecutorLog) (i : Nat) (w : ExecutorWait) (a : ExecutorAnswer) : Prop :=
  ∃ e ∈ log, e.call = i ∧ e.answered = some (w, a)

namespace ExecutorEnv

variable (env : ExecutorEnv) (log : ExecutorLog) (i : Nat) (c : ExecuteCall)

/-- The blockhash was fetched for the call, or for another one and it was fresh when the call began. -/
def Recent (blockhash : Blockhash) : Prop :=
  ∃ j now, Answered log j .blockhash (.blockhash blockhash now) ∧ (j = i ∨ c.now - now < env.blockhashCacheTtlMs)

/-- A transaction of the call that fits. -/
def Composed (tx : ComposedTransaction) : Prop :=
  ∃ blockhash, env.Recent log i c blockhash ∧ env.composeTransaction c.params blockhash = .ok tx

/-- What happens before a transaction is signed. -/
def Cleared (tx : ComposedTransaction) (simulation : Option SimulationResult) : Prop :=
  ∃ first, env.Composed log i c first ∧
    (simulation = none ∧ env.skips = true ∧ tx = first ∨
      ∃ value result, simulation = some result ∧ Answered log i (.simulation first) (.simulation value) ∧
        simulateBeforeSend c.params.vaultMonitoring env.drainThresholds value = some result ∧
        .fullDrain ∉ result.riskFlags ∧ env.recompose c.params first result = .ok tx)

/-- What happens before bytes are sent. -/
def Signed (wire : List UInt8) (simulation : Option SimulationResult) : Prop :=
  ∃ tx others, env.Cleared log i c tx simulation ∧ Answered log i (.signature tx simulation) (.signed (wire :: others))

/-- Signed bytes are all that the call has sent. -/
def HandedOver (wire : List UInt8) (simulation : Option SimulationResult) : Prop :=
  sentBy log i = [wire] ∧ env.Signed log i c wire simulation

/-- What happens before a status is polled. The deadline counts from the answer of the node. -/
def Sent (polling : Polling) : Prop :=
  ∃ wire now now', env.HandedOver log i c wire polling.simulation ∧
    Answered log i (.send wire polling.simulation) (.sent polling.signature now now') ∧
    polling.deadline = now + env.timeoutMs

def Known : ExecutorWait → Prop
  | .blockhash => sentBy log i = []
  | .simulation tx => sentBy log i = [] ∧ env.Composed log i c tx
  | .signature tx simulation => sentBy log i = [] ∧ env.Cleared log i c tx simulation
  | .send wire simulation => env.HandedOver log i c wire simulation
  | .statuses polling => env.Sent log i c polling
  | .sleep polling => env.Sent log i c polling

/-- The units of a call, or those that a simulation has made of them. -/
def Requested (e : ExecutorEntry) (units : Double) : Prop :=
  units = e.input.params.units ∨
    ∃ tx value result, e.answered = some (.simulation tx, .simulation value) ∧
      simulateBeforeSend e.input.params.vaultMonitoring env.drainThresholds value = some result ∧
      units = adjustCU e.input.params.units result.unitsConsumed

/-- Why a call fails that has not sent anything. -/
def FailedBefore (e : ExecutorEntry) : ExecuteError → Prop
  | .rejected message => e.answered = some (.blockhash, .rejected message) ∨
      ∃ tx simulation, e.answered = some (.signature tx simulation, .rejected message)
  | .outOfRange field =>
      field = "units" ∧ (∃ units, env.Requested e units ∧ ¬ (0 ≤ units.value ∧ units.value ≤ 2 ^ 32 - 1)) ∨
        field = "microLamports" ∧ ∃ fee, e.input.params.priorityFeeMicroLamports = some fee ∧ 0 < fee.value ∧
          ¬ (fee.value.den = 1 ∧ fee.value < 2 ^ 64)
  | .notCompiled => ∃ blockhash computeBudget, env.Recent (log ++ [e]) e.call e.input blockhash ∧
      env.wireBytes (e.input.params.transaction blockhash computeBudget) = none
  | .txTooLarge byteLength altsApplied => ∃ blockhash tx wire, env.Recent (log ++ [e]) e.call e.input blockhash ∧
      env.composeSigilTransaction e.input.params blockhash e.input.params.units = .ok tx ∧
      env.wireBytes tx = some wire ∧ byteLength = wire.length ∧ maxTxSize < byteLength ∧
      altsApplied = !e.input.params.addressLookupTables.isEmpty
  | .simulationFailed => ∃ tx, env.Composed log e.call e.input tx ∧
      ((∃ message, e.answered = some (.simulation tx, .rejected message)) ∨
        ∃ value, e.answered = some (.simulation tx, .simulation value) ∧
          simulateBeforeSend e.input.params.vaultMonitoring env.drainThresholds value = none)
  | .drainDetected riskFlags => ∃ tx value result, env.Composed log e.call e.input tx ∧
      e.answered = some (.simulation tx, .simulation value) ∧
      simulateBeforeSend e.input.params.vaultMonitoring env.drainThresholds value = some result ∧
      result.riskFlags = riskFlags ∧ .fullDrain ∈ riskFlags
  | .signerInvalid => env.canSign = false
  | .signatureInvalid => ∃ tx simulation, env.Cleared log e.call e.input tx simulation ∧
      e.answered = some (.signature tx simulation, .signed [])
  | .txFailed _ _ => False
  | .confirmationTimeout _ _ => False

/-- Why a call fails that has sent its transaction. -/
def FailedAfter (e : ExecutorEntry) : ExecuteError → Prop
  | .rejected message =>
      (∃ wire simulation, env.HandedOver log e.call e.input wire simulation ∧
        e.answered = some (.send wire simulation, .rejected message)) ∨
      ∃ polling, env.Sent log e.call e.input polling ∧ e.answered = some (.statuses polling, .rejected message)
  | .txFailed signature err => ∃ polling status, env.Sent log e.call e.input polling ∧ polling.signature = signature ∧
      e.answered = some (.statuses polling, .statuses (some status)) ∧ status.err = some err
  | .confirmationTimeout signature timeoutMs => timeoutMs = env.timeoutMs ∧
      ∃ polling now, env.Sent (log ++ [e]) e.call e.input polling ∧ polling.signature = signature ∧
        polling.deadline ≤ now ∧
        ((∃ wire sent, e.answered = some (.send wire polling.simulation, .sent signature sent now)) ∨
          ∃ random, e.answered = some (.sleep polling, .awake now random))
  | _ => False

/-- A call settles with a signature that was confirmed, or for a reason that its answer shows. -/
def Concluded (e : ExecutorEntry) : ExecuteOutcome → Prop
  | .ok result => ∃ polling status, env.Sent log e.call e.input polling ∧
      e.answered = some (.statuses polling, .statuses (some status)) ∧ status.err = none ∧
      env.confirms status.confirmationStatus = true ∧ result = executeResult polling.signature polling.simulation
  | .error err => sentBy log e.call = [] ∧ env.FailedBefore log e err ∨ env.FailedAfter log e err

structure Entered (e : ExecutorEntry) : Prop where
  once : ∀ wire simulation, e.stage = .waits (.send wire simulation) → sentBy log e.call = []
  cleared : ∀ tx simulation, e.stage = .waits (.signature tx simulation) →
    env.Cleared (log ++ [e]) e.call e.input tx simulation
  concluded : ∀ o, e.stage = .settled o → env.Concluded log e o

/-- The cache holds what the node has answered. -/
def CacheFetched (cache : BlockhashCache) : Prop :=
  ∀ blockhash, cache.cached = some blockhash →
    ∃ j, Answered log j .blockhash (.blockhash blockhash cache.fetchedAt)

end ExecutorEnv

/-! ## Growing logs -/

section
variable {env : ExecutorEnv} {log : ExecutorLog} {i : Nat} {c : ExecuteCall} {e : ExecutorEntry}
  {tx : ComposedTransaction} {simulation : Option SimulationResult} {wire : List UInt8}

theorem sentBy_concat : sentBy (log ++ [e]) i =
    sentBy log i ++ (if e.call = i then ExecutorStage.sends e.stage else none).toList := by
  rw [sentBy, List.filterMap_append]
  cases h : (if e.call = i then ExecutorStage.sends e.stage else none) with
  | none => simp [sentBy, h]
  | some wire => simp [sentBy, h]

variable (log) in
theorem sentBy_concat_of_ne (h : e.call ≠ i) : sentBy (log ++ [e]) i = sentBy log i := by
  rw [sentBy_concat, if_neg h, Option.toList_none, List.append_nil]

theorem Answered.concat {w : ExecutorWait} {a : ExecutorAnswer} (h : Answered log i w a) :
    Answered (log ++ [e]) i w a := by
  obtain ⟨d, hd, hcall⟩ := h
  exact ⟨d, List.mem_append_left _ hd, hcall⟩

theorem Answered.last {w : ExecutorWait} {a : ExecutorAnswer} (h : e.answered = some (w, a)) :
    Answered (log ++ [e]) e.call w a := ⟨e, List.mem_append_right _ (List.mem_singleton_self e), rfl, h⟩

namespace ExecutorEnv

theorem Recent.concat {blockhash : Blockhash} (h : env.Recent log i c blockhash) :
    env.Recent (log ++ [e]) i c blockhash := by
  obtain ⟨j, now, hanswered, hrecent⟩ := h
  exact ⟨j, now, hanswered.concat, hrecent⟩

theorem Composed.concat (h : env.Composed log i c tx) : env.Composed (log ++ [e]) i c tx := by
  obtain ⟨blockhash, hrecent, hcompose⟩ := h
  exact ⟨blockhash, hrecent.concat, hcompose⟩

theorem Cleared.concat (h : env.Cleared log i c tx simulation) : env.Cleared (log ++ [e]) i c tx simulation := by
  obtain ⟨first, hfirst, h⟩ := h
  refine ⟨first, hfirst.concat, ?_⟩
  rcases h with h | ⟨value, result, hsimulation, hanswered, hresult, hflags, htx⟩
  · exact .inl h
  · exact .inr ⟨value, result, hsimulation, hanswered.concat, hresult, hflags, htx⟩

theorem Signed.concat (h : env.Signed log i c wire simulation) : env.Signed (log ++ [e]) i c wire simulation := by
  obtain ⟨tx, others, hcleared, hanswered⟩ := h
  exact ⟨tx, others, hcleared.concat, hanswered.concat⟩

theorem HandedOver.concat (h : env.HandedOver log i c wire simulation)
    (hsame : sentBy (log ++ [e]) i = sentBy log i) : env.HandedOver (log ++ [e]) i c wire simulation :=
  ⟨hsame.trans h.1, h.2.concat⟩

theorem Sent.concat {polling : Polling} (h : env.Sent log i c polling)
    (hsame : sentBy (log ++ [e]) i = sentBy log i) : env.Sent (log ++ [e]) i c polling := by
  obtain ⟨wire, now, now', hover, hanswered, hdeadline⟩ := h
  exact ⟨wire, now, now', hover.concat hsame, hanswered.concat, hdeadline⟩

/-- The turns of other calls. -/
theorem Known.concat {w : ExecutorWait} (h : env.Known log i c w) (hne : e.call ≠ i) :
    env.Known (log ++ [e]) i c w := by
  have hsame := sentBy_concat_of_ne log hne
  cases w with
  | blockhash => exact hsame.trans h
  | simulation tx => exact ⟨hsame.trans h.1, h.2.concat⟩
  | signature tx simulation => exact ⟨hsame.trans h.1, h.2.concat⟩
  | send wire simulation => exact HandedOver.concat h hsame
  | statuses polling => exact Sent.concat h hsame
  | sleep polling => exact Sent.concat h hsame

theorem CacheFetched.concat {cache : BlockhashCache} (h : CacheFetched log cache) :
    CacheFetched (log ++ [e]) cache := by
  intro blockhash hcached
  obtain ⟨j, hanswered⟩ := h blockhash hcached
  exact ⟨j, hanswered.concat⟩

end ExecutorEnv

end

/-! ## Turns -/

section
variable {env : ExecutorEnv} {log : ExecutorLog} {e : ExecutorEntry} {cache : BlockhashCache}

open AsyncFunction (Established)

/-- The first account at the address of the vault that the answer has data of. -/
def VaultMonitoring.Lists (m : VaultMonitoring) (accounts : List AccountInfo) (bytes : List UInt8) : Prop :=
  ∃ before after, m.monitorAccounts.zip accounts = before ++ (m.vaultAddress, .data bytes) :: after ∧ bytes ≠ [] ∧
    ∀ entry ∈ before, entry.1 = m.vaultAddress → entry.2 = .missing ∨ entry.2 = .data []

/-- Where the answer lists the vault, it keeps more than the share that blocks a transaction. -/
def VaultMonitoring.Spared (m : VaultMonitoring) (thresholds : DrainThresholds) (accounts : List AccountInfo) : Prop :=
  ∀ bytes, m.Lists accounts bytes →
    let lost := (m.preBalances.lookup m.vaultAddress).getD 0 - parseTokenBalance bytes
    0 < lost → 0 < m.totalVaultBalance → lost * 100 < m.totalVaultBalance * thresholds.blockPct

end

/-! ### Two calls that share a blockhash -/

def sendingEnv : ExecutorEnv where
  wireBytes tx := some (List.replicate (200 + 40 * tx.instructions.length) 0)

def watched : VaultMonitoring :=
  { vaultAddress := .key 7
    monitorAccounts := [.key 7]
    preBalances := [(.key 7, 100)]
    totalVaultBalance := 100
    knownRecipients := none }

def sendParams : ExecuteTransactionParams :=
  { feePayer := .key 3
    validateIx := { programAddress := crateId }
    defiInstructions := [{ programAddress := jupiterProgram }]
    finalizeIx := { programAddress := crateId }
    computeUnits := some (.ofRat 600000)
    vaultMonitoring := some watched }

def sharedBlockhash : Blockhash :=
  { blockhash := "4NCYB3kRT8sCNodPNuCZo8VUh4xqpBQxsxed2wd9xaJ4", lastValidBlockHeight := 1000 }

/-- The vault keeps 60 of 100. -/
def sparingAnswer : SimulationValue :=
  { unitsConsumed := some 50000
    accounts := some [.data (List.replicate 64 0 ++ leDigits 8 60)] }

def sendingTurns : List (AsyncFunction.Turn ExecuteCall ExecutorAnswer) :=
  [.call ⟨sendParams, 0⟩, .answer 0 (.blockhash sharedBlockhash 100), .call ⟨sendParams, 20000⟩,
   .answer 1 (.simulation (some sparingAnswer)), .answer 0 (.simulation (some sparingAnswer)),
   .answer 1 (.signed [[1]]), .answer 1 (.sent "5wHu" 20500 20501), .answer 1 (.statuses none),
   .answer 1 (.awake 21600 (.ofRat 0)), .answer 1 (.statuses (some ⟨none, .confirmed⟩)),
   .answer 0 (.rejected "declined")]

def sendingLog : ExecutorLog := (sendingEnv.executor.after {} sendingTurns).log

/-- Times that the clock shows while an answer is processed. -/
def ExecutorAnswer.readings : ExecutorAnswer → List Int
  | .blockhash _ now => [now]
  | .sent _ now now' => [now, now']
  | .awake now _ => [now]
  | _ => []

/-- Times that a call has seen. -/
def readings (log : ExecutorLog) (i : Nat) : List Int :=
  log.flatMap fun e => if e.call = i then e.answered.elim [] fun answered => answered.2.readings else []

def ExecutorWait.delay : ExecutorWait → ℚ
  | .sleep polling => polling.delay.value
  | _ => 0

/-- The clock does not go back while something is sent, and a call sleeps for as long as it has asked to. -/
def ExecutorAnswer.InTime (seen : List Int) (w : ExecutorWait) : ExecutorAnswer → Prop
  | .sent _ now now' => now ≤ now'
  | .awake now random => 0 ≤ random.value ∧ ∀ t ∈ seen, t + w.delay ≤ now
  | _ => True

instance ExecutorAnswer.InTime.decidable (seen : List Int) (w : ExecutorWait) :
    (a : ExecutorAnswer) → Decidable (a.InTime seen w)
  | .sent _ now now' => inferInstanceAs (Decidable (now ≤ now'))
  | .awake now random => inferInstanceAs (Decidable (0 ≤ random.value ∧ ∀ t ∈ seen, t + w.delay ≤ now))
  | .rejected _ => isTrue trivial
  | .blockhash _ _ => isTrue trivial
  | .simulation _ => isTrue trivial
  | .signed _ => isTrue trivial
  | .statuses _ => isTrue trivial

/-- Every answer comes in time. -/
def RunsInTime (log : ExecutorLog) : Prop :=
  Throughout (fun before e => ∀ x ∈ e.answered, x.2.InTime (readings before e.call) x.1) log

instance RunsInTime.decidable (log : ExecutorLog) : Decidable (RunsInTime log) := by
  unfold RunsInTime
  infer_instance

def isPoll (s : ExecutorStage) : Bool :=
  match s with
  | .waits (.statuses _) => true
  | _ => false

/-- Number of times that a call has asked for the status of its signature. -/
def polls (log : ExecutorLog) (i : Nat) : Nat := log.countP fun e => e.call = i && isPoll e.stage

namespace ExecutorEnv

variable (env : ExecutorEnv)

/-- No sleep is shorter. -/
def leastDelay : ℚ := min env.pollIntervalMs.value 5000

/-- Each poll but the first has come after a sleep. -/
def TimedPolling (log : ExecutorLog) (i : Nat) (polling : Polling) : Prop :=
  ∃ start t : Int, polling.deadline = start + env.timeoutMs ∧ t ∈ readings log i ∧ t < polling.deadline ∧
    env.leastDelay ≤ polling.delay.value ∧ start + (polls log i - 1) * env.leastDelay ≤ t

def Timed (log : ExecutorLog) (i : Nat) : ExecutorWait → Prop
  | .statuses polling => env.TimedPolling log i polling
  | .sleep polling => env.TimedPolling log i polling
  | _ => polls log i = 0

def KnownPolls (log : ExecutorLog) (i : Nat) (_ : ExecuteCall) (w : ExecutorWait) : Prop :=
  RunsInTime log → env.Timed log i w

def FewPolls (log : ExecutorLog) (e : ExecutorEntry) : Prop :=
  isPoll e.stage = true → RunsInTime (log ++ [e]) →
    polls (log ++ [e]) e.call ≤ ⌈env.timeoutMs / env.leastDelay⌉.toNat

end ExecutorEnv

section
variable {env : ExecutorEnv} {log : ExecutorLog} {i : Nat} {e : ExecutorEntry} {polling : Polling}

theorem polls_concat : polls (log ++ [e]) i = polls log i + if e.call = i && isPoll e.stage then 1 else 0 := by
  rw [polls, List.countP_append, List.countP_singleton]
  rfl

variable (log) in
theorem polls_concat_of_ne (h : e.call ≠ i) : polls (log ++ [e]) i = polls log i := by
  simp [polls_concat, h]

theorem polls_concat_of_stage (h : isPoll e.stage = false) : polls (log ++ [e]) i = polls log i := by
  simp [polls_concat, h]

theorem mem_readings_concat {t : Int} (h : t ∈ readings log i) : t ∈ readings (log ++ [e]) i := by
  rw [readings, List.flatMap_append]
  exact List.mem_append_left _ h

theorem mem_readings_last {w : ExecutorWait} {a : ExecutorAnswer} {t : Int} (h : e.answered = some (w, a))
    (ht : t ∈ a.readings) : t ∈ readings (log ++ [e]) e.call := by
  rw [readings, List.flatMap_append]
  refine List.mem_append_right _ ?_
  simpa [h] using ht

theorem nextDelay_ge {delay random : Double} {d : ℚ} (hd : 0 < d) (hmax : d ≤ 5000) (hdelay : d ≤ delay.value)
    (hrandom : 0 ≤ random.value) : d ≤ (ExecutorEnv.nextDelay delay random).value := by
  have hone : Double.round 1 = 1 := by simpa using Double.round_natCast (n := 1) (by decide)
  have hrandomized : 0 ≤ (Double.ofRat (random.value * (Double.ofRat (2 / 5)).value)).value := by
    apply Double.round_nonneg
    exact mul_nonneg hrandom (Double.round_nonneg (by norm_num))
  have hleast : 1 ≤ (Double.ofRat (13 / 10)).value := Double.le_round hone one_pos (by norm_num)
  have hfactor : 1 ≤ (Double.ofRat ((Double.ofRat (13 / 10)).value +
      (Double.ofRat (random.value * (Double.ofRat (2 / 5)).value)).value)).value :=
    Double.le_round hone one_pos (by linarith)
  have hpos : 0 < delay.value := hd.trans_le hdelay
  unfold ExecutorEnv.nextDelay
  dsimp only
  split
  · exact hdelay.trans (Double.le_round delay.exact hpos (le_mul_of_one_le_right hpos.le hfactor))
  · have hcap : (Double.ofRat 5000).value = 5000 := by simpa using Double.round_natCast (n := 5000) (by decide)
    rwa [hcap]

theorem stageOf_eq_waits {x : Except ExecuteError ExecutorWait} {w : ExecutorWait} :
    stageOf x = .waits w ↔ x = .ok w := by
  cases x <;> simp [stageOf]

theorem poll_ok {now : Int} {w : ExecutorWait} (h : env.poll polling now = .ok w) :
    now < polling.deadline ∧ w = .statuses polling := by
  simp only [ExecutorEnv.poll, bind_eq_ok, require_eq_ok, pure_eq_ok] at h
  obtain ⟨_, hearly, rfl⟩ := h
  exact ⟨hearly, rfl⟩

theorem polled_waits {status : Option SignatureStatusValue} {w : ExecutorWait}
    (h : env.polled polling status = .waits w) : w = .sleep polling := by
  unfold ExecutorEnv.polled at h
  split at h
  · cases h
    rfl
  · split at h
    · cases h
    · split at h
      · cases h
      · cases h
        rfl

theorem ExecutorEnv.TimedPolling.polls_le (hd : 0 < env.leastDelay) (h : env.TimedPolling log i polling) :
    polls log i ≤ ⌈env.timeoutMs / env.leastDelay⌉.toNat := by
  obtain ⟨start, t, hdeadline, -, hearly, -, hslept⟩ := h
  have hlt : (t : ℚ) < start + env.timeoutMs := by
    rw [hdeadline] at hearly
    exact_mod_cast hearly
  have hquotient : (polls log i : ℚ) - 1 < env.timeoutMs / env.leastDelay := by
    rw [lt_div_iff₀ hd]
    linarith
  have hceil : (polls log i : ℚ) - 1 < ⌈env.timeoutMs / env.leastDelay⌉ := hquotient.trans_le (Int.le_ceil _)
  have : (polls log i : ℤ) - 1 < ⌈env.timeoutMs / env.leastDelay⌉ := by exact_mod_cast hceil
  omega

/-- A call waits before its first poll, or has slept before each other one. -/
theorem timed_proceed {w w' : ExecutorWait} {a : ExecutorAnswer} (hd : 0 < env.leastDelay)
    (hwait : env.Timed log e.call w) (hanswered : e.answered = some (w, a))
    (hproceed : env.proceed e.input w a = some e.stage) (htime : a.InTime (readings log e.call) w)
    (hstage : e.stage = .waits w') :
    env.Timed (log ++ [e]) e.call w' := by
  unfold ExecutorEnv.proceed at hproceed
  rw [hstage] at hproceed
  split at hproceed
  · obtain ⟨_, _, -, -, -, rfl⟩ := simulated_ok (stageOf_eq_waits.mp (Option.some.inj hproceed))
    exact (polls_concat_of_stage (by rw [hstage]; rfl)).trans hwait
  · obtain ⟨_, _, -, -, -, rfl⟩ := simulated_ok (stageOf_eq_waits.mp (Option.some.inj hproceed))
    exact (polls_concat_of_stage (by rw [hstage]; rfl)).trans hwait
  · next simulation wires =>
      cases wires with
      | nil => cases hproceed
      | cons wire others =>
          cases hproceed
          exact (polls_concat_of_stage (by rw [hstage]; rfl)).trans hwait
  · next wire simulation signature now now' =>
      obtain ⟨hearly, rfl⟩ := poll_ok (stageOf_eq_waits.mp (Option.some.inj hproceed))
      have hclock : now ≤ now' := htime
      have hfirst : polls (log ++ [e]) e.call = 1 := by
        have hnone : polls log e.call = 0 := hwait
        rw [polls_concat, hnone, hstage]
        simp [isPoll]
      refine ⟨now, now', rfl, mem_readings_last hanswered (by simp [ExecutorAnswer.readings]), hearly,
        min_le_left _ _, ?_⟩
      rw [hfirst]
      simpa using hclock
  · obtain rfl := polled_waits (Option.some.inj hproceed)
    obtain ⟨start, t, hdeadline, hread, hearly, hdelay, hslept⟩ := hwait
    refine ⟨start, t, hdeadline, mem_readings_concat hread, hearly, hdelay, ?_⟩
    rwa [polls_concat_of_stage (by rw [hstage]; rfl)]
  · next polling now random =>
      obtain ⟨hearly, rfl⟩ := poll_ok (stageOf_eq_waits.mp (Option.some.inj hproceed))
      obtain ⟨start, t, hdeadline, hread, -, hdelay, hslept⟩ := hwait
      obtain ⟨hrandom, hlate⟩ := htime
      have hnext : polls (log ++ [e]) e.call = polls log e.call + 1 := by
        rw [polls_concat, hstage]
        simp [isPoll]
      refine ⟨start, now, hdeadline, mem_readings_last hanswered (by simp [ExecutorAnswer.readings]), hearly,
        nextDelay_ge hd (min_le_right _ _) hdelay hrandom, ?_⟩
      have hlate : t + polling.delay.value ≤ now := hlate t hread
      rw [hnext]
      push_cast
      linarith
  · cases hproceed
  · cases hproceed
  · cases hproceed

theorem establishedPolls {cache : BlockhashCache} (hd : 0 < env.leastDelay)
    (h : RunsInTime (log ++ [e]) → ∀ w, e.stage = .waits w → env.Timed (log ++ [e]) e.call w) :
    AsyncFunction.Established (fun _ _ => True) env.KnownPolls env.FewPolls log e cache := by
  refine ⟨trivial, fun w hw htime => h htime w hw, ?_⟩
  intro hpoll htime
  cases hstage : e.stage with
  | settled o =>
      rw [hstage] at hpoll
      cases hpoll
  | waits w =>
      rw [hstage] at hpoll
      have htimed := h htime w hstage
      cases w with
      | statuses polling => exact htimed.polls_le hd
      | blockhash => cases hpoll
      | simulation tx => cases hpoll
      | signature tx simulation => cases hpoll
      | send wire simulation => cases hpoll
      | sleep polling => cases hpoll

theorem composed_timed {p : ExecuteTransactionParams} {blockhash : Blockhash} {w : ExecutorWait}
    (h : env.composed p blockhash = .ok w) (hnone : polls log i = 0) : env.Timed log i w := by
  obtain ⟨tx, -, ⟨-, rfl⟩ | ⟨-, rfl⟩⟩ := composed_ok h
  · exact hnone
  · exact hnone

theorem composed_silent {p : ExecuteTransactionParams} {blockhash : Blockhash} :
    isPoll (stageOf (env.composed p blockhash)) = false := by
  cases h : env.composed p blockhash with
  | error err => rfl
  | ok w =>
      obtain ⟨tx, -, ⟨-, rfl⟩ | ⟨-, rfl⟩⟩ := composed_ok h
      · rfl
      · rfl

theorem polls_outline (hd : 0 < env.leastDelay) :
    env.executor.Outline (fun _ _ => True) env.KnownPolls env.FewPolls := by
  refine ⟨?_, ?_, ?_⟩
  · intro log i c w e h hne htime
    have hsame := polls_concat_of_ne log hne
    have hbefore := h (throughout_concat.mp htime).1
    cases w with
    | statuses polling =>
        obtain ⟨start, t, hdeadline, hread, hearly, hdelay, hslept⟩ := hbefore
        exact ⟨start, t, hdeadline, mem_readings_concat hread, hearly, hdelay, by rwa [hsame]⟩
    | sleep polling =>
        obtain ⟨start, t, hdeadline, hread, hearly, hdelay, hslept⟩ := hbefore
        exact ⟨start, t, hdeadline, mem_readings_concat hread, hearly, hdelay, by rwa [hsame]⟩
    | blockhash => exact hsame.trans hbefore
    | simulation tx => exact hsame.trans hbefore
    | signature tx simulation => exact hsame.trans hbefore
    | send wire simulation => exact hsame.trans hbefore
  · intro log cache i c _ hnew
    have hnone : polls log i = 0 := by
      rw [polls, List.countP_eq_zero]
      intro e he
      simp [hnew e he]
    refine establishedPolls hd ?_
    intro _ w hw
    simp only [ExecutorEnv.executor, ExecutorEnv.call] at hw ⊢
    cases hfresh : cache.fresh env.blockhashCacheTtlMs c.now with
    | none =>
        rw [hfresh] at hw
        cases hw
        exact (polls_concat_of_stage rfl).trans hnone
    | some blockhash =>
        rw [hfresh] at hw
        exact composed_timed (stageOf_eq_waits.mp hw) ((polls_concat_of_stage composed_silent).trans hnone)
  · intro log cache i c w a r _ hwait hresume
    refine establishedPolls hd ?_
    intro htime w' hw'
    obtain ⟨hbefore, hturn⟩ := throughout_concat.mp htime
    simp only [ExecutorEnv.executor, ExecutorEnv.resume] at hresume
    split at hresume
    · cases hresume
      exact composed_timed (stageOf_eq_waits.mp hw')
        ((polls_concat_of_stage composed_silent).trans (hwait hbefore))
    · obtain ⟨stage, hstage, rfl⟩ := Option.map_eq_some_iff.mp hresume
      exact timed_proceed hd (hwait hbefore) rfl hstage (hturn _ rfl) hw'

/-- In a run in time no call asks for the status of its signature more often than it can sleep before its deadline. -/
theorem polls_bounded (turns : List (AsyncFunction.Turn ExecuteCall ExecutorAnswer))
    (hinterval : 0 < env.pollIntervalMs.value) (htime : RunsInTime (env.executor.after {} turns).log) (i : Nat) :
    polls (env.executor.after {} turns).log i ≤ ⌈env.timeoutMs / env.leastDelay⌉.toNat := by
  have hd : 0 < env.leastDelay := lt_min hinterval (by norm_num)
  have hentered : Throughout env.FewPolls (env.executor.after {} turns).log :=
    ((polls_outline hd).sound (s := {}) trivial turns).entered
  generalize (env.executor.after {} turns).log = log at htime hentered
  induction log using List.reverseRecOn with
  | nil => exact Nat.zero_le _
  | append_singleton log e ih =>
      obtain ⟨hinit, hlast⟩ := throughout_concat.mp hentered
      have hbefore := ih (throughout_concat.mp htime).1 hinit
      by_cases hpoll : e.call = i ∧ isPoll e.stage = true
      · obtain ⟨rfl, hpoll⟩ := hpoll
        exact hlast hpoll htime
      · have hsame : polls (log ++ [e]) i = polls log i := by
          rw [polls_concat]
          simpa using hpoll
        rwa [hsame]

end

theorem polls_bounded_second : polls sendingLog 1 = 2 ∧
    polls sendingLog 1 ≤ ⌈sendingEnv.timeoutMs / sendingEnv.leastDelay⌉.toNat :=
  ⟨by decide +kernel, polls_bounded sendingTurns (by decide +kernel) (by decide +kernel) 1⟩

end Sigil.Sdk
