import VaultBatch.Gateway
import VaultBatch.Proofs.Calldata.RoundTrip

/-!
# Runs against a gateway

`Runs` says what one list of operations does to a gateway: it is refused by compilation and nothing
is sent, or its batch is sent once and the answer is the gateway's. `RunsAll` chains these steps
over any number of lists. `runsAll_iff` says that a session has these steps and no others, and
`runAll_submits` what a caller may rely on: just the calls of the lists that compile reach the
gateway, each once and in order.
-/

namespace VaultBatch.Gateway

variable {σ ρ ε : Type}

/-- Runs lists of operations one after the other; the answers come in the order of the lists. -/
def runAll (gateway : Gateway σ ρ ε) (limits : Limits) :
    List (List Operation) → σ → List (Except (ExecuteError ε) ρ) × σ
  | [], state => ([], state)
  | operations :: rest, state =>
    let (answer, middle) := gateway.run limits operations state
    let (answers, last) := gateway.runAll limits rest middle
    (answer :: answers, last)

/-- The calls of the lists that compile, in order. -/
def calls (limits : Limits) (lists : List (List Operation)) : List GatewayCall :=
  lists.filterMap fun operations => (Batch.compile limits operations).toOption.map Batch.call

/-- The gateway that also keeps every call it gets. -/
def logged (gateway : Gateway σ ρ ε) : Gateway (σ × List GatewayCall) ρ ε where
  execute call state :=
    let (answer, next) := gateway.execute call state.1
    (answer, next, state.2 ++ [call])

/-! ## One list -/

/-- What one list does: the answer, the next state and the calls that are sent. -/
inductive Runs (gateway : Gateway σ ρ ε) (limits : Limits) (operations : List Operation)
    (state : σ) : Except (ExecuteError ε) ρ → σ → List GatewayCall → Prop where
  /-- What does not compile is answered by the fault, and nothing is sent. -/
  | refused {error : CompileError} :
      Batch.compile limits operations = .error error →
      Runs gateway limits operations state (.error (.compile error)) state []
  /-- The batch is sent and its receipt is the answer. -/
  | received {batch : Batch} {receipt : ρ} {next : σ} :
      Batch.compile limits operations = .ok batch →
      gateway.execute batch.call state = (.ok receipt, next) →
      Runs gateway limits operations state (.ok receipt) next [batch.call]
  /-- The batch is sent and the gateway's error is the answer. -/
  | rejected {batch : Batch} {error : ε} {next : σ} :
      Batch.compile limits operations = .ok batch →
      gateway.execute batch.call state = (.error error, next) →
      Runs gateway limits operations state (.error (.gateway error)) next [batch.call]

variable {gateway : Gateway σ ρ ε} {limits : Limits} {operations : List Operation} {state : σ}
  {answer : Except (ExecuteError ε) ρ} {next : σ} {sent : List GatewayCall}

/-- A list that does not compile is not sent. -/
theorem calls_of_error {error : CompileError} (h : Batch.compile limits operations = .error error) :
    calls limits [operations] = [] := by
  simp [calls, h, Except.toOption]

/-- A list that compiles is sent as the call of its batch. -/
theorem calls_of_ok {batch : Batch} (h : Batch.compile limits operations = .ok batch) :
    calls limits [operations] = [batch.call] := by
  simp [calls, h, Except.toOption]

/-- A list that does not compile is refused for that, and the state stays. -/
theorem run_of_error {error : CompileError} (h : Batch.compile limits operations = .error error) :
    gateway.run limits operations state = (.error (.compile error), state) := by
  rw [run, h]

/-- A list that compiles is answered by the gateway, whose faults are renamed. -/
theorem run_of_ok {batch : Batch} (h : Batch.compile limits operations = .ok batch) :
    gateway.run limits operations state =
      ((gateway.execute batch.call state).1.mapError .gateway,
        (gateway.execute batch.call state).2) := by
  rw [run, h]

/-- Running a list does just this: no batch is sent but its own, and that once. -/
theorem runs_iff :
    Runs gateway limits operations state answer next sent ↔
      gateway.run limits operations state = (answer, next) ∧ sent = calls limits [operations] := by
  constructor
  · intro h
    cases h with
    | refused hcompile => exact ⟨run_of_error hcompile, (calls_of_error hcompile).symm⟩
    | received hcompile hexecute =>
        rw [run_of_ok hcompile, hexecute]
        exact ⟨rfl, (calls_of_ok hcompile).symm⟩
    | rejected hcompile hexecute =>
        rw [run_of_ok hcompile, hexecute]
        exact ⟨rfl, (calls_of_ok hcompile).symm⟩
  · rintro ⟨hrun, rfl⟩
    cases hcompile : Batch.compile limits operations with
    | error error =>
        rw [run_of_error hcompile] at hrun
        cases hrun
        rw [calls_of_error hcompile]
        exact .refused hcompile
    | ok batch =>
        rw [run_of_ok hcompile] at hrun
        rw [calls_of_ok hcompile]
        rcases hexecute : gateway.execute batch.call state with ⟨error | receipt, after⟩
        · rw [hexecute] at hrun
          cases hrun
          exact .rejected hcompile hexecute
        · rw [hexecute] at hrun
          cases hrun
          exact .received hcompile hexecute

/-- Keeping the calls changes neither the answer nor the state. -/
theorem Runs.logged (h : Runs gateway limits operations state answer next sent)
    (log : List GatewayCall) :
    gateway.logged.run limits operations (state, log) = (answer, next, log ++ sent) := by
  cases h with
  | refused hcompile => rw [run_of_error hcompile, List.append_nil]
  | received hcompile hexecute =>
      rw [run_of_ok hcompile]
      simp only [Gateway.logged, hexecute]
      rfl
  | rejected hcompile hexecute =>
      rw [run_of_ok hcompile]
      simp only [Gateway.logged, hexecute]
      rfl

/-! ## Lists one after the other -/

/-- What lists do one after the other: each starts in the state that the one before it has left. -/
inductive RunsAll (gateway : Gateway σ ρ ε) (limits : Limits) :
    List (List Operation) → σ → List (Except (ExecuteError ε) ρ) → σ → List GatewayCall → Prop where
  | nil {state : σ} : RunsAll gateway limits [] state [] state []
  | cons {operations : List Operation} {rest : List (List Operation)} {state middle last : σ}
      {answer : Except (ExecuteError ε) ρ} {answers : List (Except (ExecuteError ε) ρ)}
      {sent later : List GatewayCall} :
      Runs gateway limits operations state answer middle sent →
      RunsAll gateway limits rest middle answers last later →
      RunsAll gateway limits (operations :: rest) state (answer :: answers) last (sent ++ later)

variable {lists : List (List Operation)} {answers : List (Except (ExecuteError ε) ρ)} {last : σ}

/-- The calls for several lists are those for the first one and then those for the rest. -/
theorem calls_cons (limits : Limits) (operations : List Operation)
    (rest : List (List Operation)) :
    calls limits (operations :: rest) = calls limits [operations] ++ calls limits rest :=
  List.filterMap_append (l := [operations])

/-- A session does just these steps. -/
theorem runsAll_iff :
    RunsAll gateway limits lists state answers last sent ↔
      gateway.runAll limits lists state = (answers, last) ∧ sent = calls limits lists := by
  constructor
  · intro h
    induction h with
    | nil => exact ⟨rfl, rfl⟩
    | cons hfirst _ ih =>
        obtain ⟨hrun, rfl⟩ := runs_iff.1 hfirst
        obtain ⟨hrest, rfl⟩ := ih
        rw [runAll, hrun]
        simp only [hrest]
        exact ⟨trivial, (calls_cons limits _ _).symm⟩
  · rintro ⟨hrun, rfl⟩
    induction lists generalizing state answers with
    | nil =>
        cases hrun
        exact .nil
    | cons operations rest ih =>
        cases hrun
        rw [calls_cons]
        exact .cons (runs_iff.2 ⟨rfl, rfl⟩) (ih rfl)

/-- The calls that are kept in a session are just those that are sent. -/
theorem RunsAll.logged (h : RunsAll gateway limits lists state answers last sent)
    (log : List GatewayCall) :
    gateway.logged.runAll limits lists (state, log) = (answers, last, log ++ sent) := by
  induction h generalizing log with
  | nil => rw [runAll, List.append_nil]
  | cons hfirst _ ih =>
      rw [runAll, hfirst.logged]
      simp only [ih, List.append_assoc]

/-- Each answer of a session is that of one step. -/
theorem RunsAll.forall₂ (h : RunsAll gateway limits lists state answers last sent) :
    List.Forall₂ (fun operations answer =>
      ∃ before after sent, Runs gateway limits operations before answer after sent)
      lists answers := by
  induction h with
  | nil => exact .nil
  | cons hfirst _ ih => exact .cons ⟨_, _, _, hfirst⟩ ih

/-! ## Known gateways -/

/-- What is recorded are the calls that are sent, and the receipts count them. -/
theorem RunsAll.recording {log last : List GatewayCall}
    {answers : List (Except (ExecuteError Empty) Nat)}
    (h : RunsAll recording limits lists log answers last sent) :
    last = log ++ sent ∧
      answers.filterMap Except.toOption = List.range' (log.length + 1) sent.length := by
  induction h with
  | nil => simp
  | cons hfirst _ ih =>
      obtain ⟨rfl, hreceipts⟩ := ih
      cases hfirst with
      | refused => exact ⟨rfl, hreceipts⟩
      | received hcompile hexecute =>
          cases hexecute
          simp_all [Except.toOption, List.range'_succ]
      | rejected hcompile hexecute => cases hexecute

/-- What a list is answered by the gateway that writes calldata: what compiles is written as a call
of the method, which is read as the batch if its arguments are not too long. -/
inductive Written (limits : Limits) (operations : List Operation) :
    Except (ExecuteError Calldata.Error) (List UInt8) → Prop where
  | refused {error : CompileError} :
      Batch.compile limits operations = .error error →
      Written limits operations (.error (.compile error))
  | written {batch : Batch} {block : List UInt8} :
      Batch.compile limits operations = .ok batch →
      (block.length < Abi.sizeBound →
        Calldata.decode (Calldata.selector.toList ++ block) = .ok batch) →
      Written limits operations (.ok (Calldata.selector.toList ++ block))

/-- A run that writes calldata answers with the calldata of the list. -/
theorem Runs.calldata {before after : Unit}
    {answer : Except (ExecuteError Calldata.Error) (List UInt8)}
    (h : Runs calldata limits operations before answer after sent) :
    Written limits operations answer := by
  cases h with
  | refused hcompile => exact .refused hcompile
  | received hcompile hexecute =>
      have hwf := (Batch.Built.compiled hcompile).wellFormed
      cases (Calldata.encode_eq hwf).symm.trans (congrArg Prod.fst hexecute)
      exact .written hcompile (Calldata.decode_ofArguments hwf)
  | rejected hcompile hexecute =>
      -- a compiled batch has a deposit for each token, so it can be written
      have hwf := (Batch.Built.compiled hcompile).wellFormed
      cases (Calldata.encode_eq hwf).symm.trans (congrArg Prod.fst hexecute)

/-- What a session does, whatever the gateway. The steps are those of the lists in order, and a
gateway that keeps its calls ends with the calls of the lists that compile. The gateway that records
them counts them in its receipts, and what is written as calldata is read as the batches. -/
theorem runAll_submits (limits : Limits) (lists : List (List Operation)) :
    (∀ {σ ρ ε : Type} (gateway : Gateway σ ρ ε) (state : σ),
      (∀ answers last sent, RunsAll gateway limits lists state answers last sent ↔
        gateway.runAll limits lists state = (answers, last) ∧ sent = calls limits lists) ∧
      gateway.logged.runAll limits lists (state, []) =
        ((gateway.runAll limits lists state).1, (gateway.runAll limits lists state).2,
          calls limits lists)) ∧
    ((recording.runAll limits lists []).2 = calls limits lists ∧
      (recording.runAll limits lists []).1.filterMap Except.toOption =
        List.range' 1 (calls limits lists).length) ∧
    List.Forall₂ (Written limits) lists (calldata.runAll limits lists ()).1 := by
  refine ⟨?_, ?_, ?_⟩
  · intro σ ρ ε gateway state
    exact ⟨fun _ _ _ => runsAll_iff, (runsAll_iff.2 ⟨rfl, rfl⟩).logged []⟩
  · exact RunsAll.recording (runsAll_iff.2 ⟨rfl, rfl⟩)
  · have hsteps : RunsAll calldata limits lists () _ _ _ := runsAll_iff.2 ⟨rfl, rfl⟩
    refine hsteps.forall₂.imp ?_
    rintro operations answer ⟨before, after, sent, h⟩
    exact h.calldata

end VaultBatch.Gateway
