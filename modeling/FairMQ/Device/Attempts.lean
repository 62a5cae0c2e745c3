import FairMQ.Device.Attach

namespace FairMQ.Device

open FairMQ.Channels
open FairMQ.Options (Transport)

def NeedsHost (bind : Bool) (address : List Char) : Prop :=
  hasScheme "tcp://" address = true ∧
    ¬ (bind = true ∧ (address.drop 6).takeWhile (· ≠ ':') = ['*'])

/-- The environment stops `AttachChannel` at an endpoint: the host is not known, or none of
the ports can be bound. -/
def Answer.Refuses (answer : Answer) (method : String) (endpoint : List Char) : Prop :=
  NeedsHost (readEndpoint method endpoint).1 (readEndpoint method endpoint).2 ∧
      answer.resolvedHost = "" ∨
    (readEndpoint method endpoint).1 = true ∧ ∀ n < bindCalls, answer.bound n = false

def Answer.target (answer : Answer) (method : String) (endpoint : List Char) : Option Target :=
  let (bind, address) := readEndpoint method endpoint
  (resolveAddress answer bind address).bind fun address =>
    if bind then (bindEndpoint answer bindCalls 0 address).map fun bound => ⟨true, bound⟩
    else some ⟨false, address⟩

/-- The targets in front of the first endpoint that is refused: those that the library attaches,
and those for which its `Connect` fails. -/
def outcomes (answers : Nat → Answer) (method : String) :
    Nat → List (List Char) → List Target × List Target
  | _, [] => ([], [])
  | i, endpoint :: endpoints =>
      match (answers i).target method endpoint with
      | none => ([], [])
      | some target =>
          let rest := outcomes answers method (i + 1) endpoints
          if target.bind || (answers i).connected then (target :: rest.1, rest.2)
          else (rest.1, target :: rest.2)

section Answers

variable {answer : Answer} {method : String} {endpoint : List Char}

theorem resolveAddress_eq_none {bind : Bool} {address : List Char} :
    resolveAddress answer bind address = none ↔
      NeedsHost bind address ∧ answer.resolvedHost = "" := by
  unfold resolveAddress NeedsHost
  by_cases tcp : hasScheme "tcp://" address = true
  · rw [if_pos tcp]
    dsimp only
    by_cases wildcard : bind = true ∧ (address.drop 6).takeWhile (· ≠ ':') = ['*']
    · rw [if_pos (by simpa using wildcard)]
      exact iff_of_false (by simp) fun refused => refused.1.2 wildcard
    · rw [if_neg (by simpa using wildcard)]
      by_cases unknown : answer.resolvedHost = ""
      · rw [if_pos unknown]
        exact iff_of_true rfl ⟨⟨tcp, wildcard⟩, unknown⟩
      · rw [if_neg unknown]
        exact iff_of_false (by simp) fun refused => unknown refused.2
  · rw [if_neg tcp]
    exact iff_of_false (by simp) fun refused => tcp refused.1.1

theorem bindEndpoint_eq_none {left numAttempts : Nat} :
    bindEndpoint answer left numAttempts endpoint = none ↔
      ∀ n < left, answer.bound (numAttempts + n) = false := by
  induction left generalizing numAttempts endpoint with
  | zero => simp [bindEndpoint]
  | succ left ih =>
      simp only [bindEndpoint]
      cases first : answer.bound numAttempts with
      | true => simpa using ⟨0, by omega, by simpa using first⟩
      | false =>
          simp only [Bool.false_eq_true, if_false, ih]
          constructor
          · intro later n bound
            cases n with
            | zero => exact first
            | succ n =>
                rw [Nat.add_comm n, ← Nat.add_assoc]
                exact later n (by omega)
          · intro all n bound
            rw [Nat.add_assoc, Nat.add_comm 1]
            exact all (n + 1) (by omega)

theorem target_eq_none :
    answer.target method endpoint = none ↔ answer.Refuses method endpoint := by
  simp only [Answer.target, Answer.Refuses, Option.bind_eq_none_iff, ← resolveAddress_eq_none]
  cases resolved : resolveAddress answer (readEndpoint method endpoint).1
      (readEndpoint method endpoint).2 with
  | none => simp
  | some address =>
      cases bind : (readEndpoint method endpoint).1 with
      | true => simp [bindEndpoint_eq_none]
      | false => simp

theorem Socket.attachEndpoint_eq (socket : Socket) :
    socket.attachEndpoint answer method endpoint =
      match answer.target method endpoint with
      | none => some (.failed socket)
      | some target =>
          if target.bind || answer.connected then some (socket.attach target)
          else if socket.transport = .nn then some (.missed socket target)
          else none := by
  simp only [Socket.attachEndpoint, Answer.target]
  cases resolveAddress answer (readEndpoint method endpoint).1
      (readEndpoint method endpoint).2 with
  | none => rfl
  | some address =>
      cases (readEndpoint method endpoint).1 with
      | true =>
          simp only [Option.bind_some, if_true]
          cases bindEndpoint answer bindCalls 0 address <;> rfl
      | false => rfl

variable {answers : Nat → Answer} {type : String} {transport : Transport} {i : Nat}
  {socket after : Option Socket} {attempt : Attempt} {endpoints : List (List Char)}

theorem none_refused_cons {endpoint : List Char} :
    (∀ k other, (endpoint :: endpoints)[k]? = some other →
      ¬ (answers (i + k)).Refuses method other) ↔
    ¬ (answers i).Refuses method endpoint ∧ ∀ k other, endpoints[k]? = some other →
      ¬ (answers (i + 1 + k)).Refuses method other := by
  constructor
  · intro all
    refine ⟨all 0 endpoint rfl, fun k other found => ?_⟩
    rw [Nat.add_assoc, Nat.add_comm 1]
    exact all (k + 1) other found
  · rintro ⟨first, later⟩ k other found
    cases k with
    | zero =>
        cases found
        exact first
    | succ k =>
        rw [Nat.add_comm k, ← Nat.add_assoc]
        exact later k other found

theorem attachEndpoint_own {attachment : Attachment}
    (created : socket = none → createSocket answer transport type ≠ some none)
    (done : attachEndpoint answer type method transport socket endpoint = some attachment) :
    ∃ own : Socket, attachEndpoint answer type method transport socket endpoint =
      own.attachEndpoint answer method endpoint := by
  cases socket with
  | some socket => exact ⟨socket, rfl⟩
  | none =>
      simp only [attachEndpoint] at done ⊢
      split at done
      · cases done
      · rename_i thrown
        exact absurd thrown (created rfl)
      · exact ⟨_, rfl⟩

theorem attachEndpoints_outcomes
    (created : socket = none → createSocket (answers i) transport type ≠ some none)
    (done : attachEndpoints answers type method transport i socket endpoints =
      some (after, attempt)) :
    (attempt.attached, attempt.missed) = outcomes answers method i endpoints ∧
      (attempt.success = true ↔ ∀ k endpoint, endpoints[k]? = some endpoint →
        ¬ (answers (i + k)).Refuses method endpoint) := by
  induction endpoints generalizing i socket attempt with
  | nil =>
      cases done
      exact ⟨rfl, by simp⟩
  | cons endpoint endpoints ih =>
      obtain ⟨attachment, found, _⟩ := attachEndpoints_cons done
      obtain ⟨own, isOwn⟩ := attachEndpoint_own created found
      simp only [attachEndpoints, isOwn, Socket.attachEndpoint_eq] at done
      rw [none_refused_cons, ← target_eq_none]
      cases isTarget : (answers i).target method endpoint with
      | none =>
          rw [isTarget] at done
          cases done
          exact ⟨by simp [outcomes, isTarget], by simp⟩
      | some target =>
          simp only [isTarget] at done
          by_cases taken : (target.bind || (answers i).connected) = true
          · simp only [if_pos taken, Socket.attach] at done
            obtain ⟨⟨last, rest⟩, others, same⟩ := Option.map_eq_some_iff.mp done
            cases same
            obtain ⟨lists, success⟩ := ih (by simp) others
            exact ⟨by simp [outcomes, isTarget, taken, ← lists, Attempt.add],
              by simpa [Attempt.add] using success⟩
          · by_cases silent : own.transport = .nn
            · simp only [if_neg taken, if_pos silent] at done
              obtain ⟨⟨last, rest⟩, others, same⟩ := Option.map_eq_some_iff.mp done
              cases same
              obtain ⟨lists, success⟩ := ih (by simp) others
              exact ⟨by simp [outcomes, isTarget, taken, ← lists, Attempt.add],
                by simpa [Attempt.add] using success⟩
            · simp only [if_neg taken, if_neg silent] at done
              cases done

theorem attachEndpoints_thrown (nonempty : endpoints ≠ [])
    (thrown : createSocket (answers i) transport type = some none) :
    attachEndpoints answers type method transport i none endpoints =
      some (none, ⟨false, [], [], [], []⟩) := by
  cases endpoints with
  | nil => contradiction
  | cons endpoint endpoints => simp only [attachEndpoints, attachEndpoint, thrown]

theorem attachEndpoints_isSome
    (done : attachEndpoints answers type method transport i socket endpoints =
      some (after, attempt))
    (created : socket = none →
      endpoints ≠ [] ∧ createSocket (answers i) transport type ≠ some none) :
    after.isSome := by
  induction endpoints generalizing i socket attempt with
  | nil =>
      cases done
      cases after with
      | none => exact absurd rfl (created rfl).1
      | some socket => rfl
  | cons endpoint endpoints ih =>
      obtain ⟨attachment, found, ⟨rfl, rfl⟩ | ⟨next, rest, isNext, others, extended⟩⟩ :=
        attachEndpoints_cons done
      · obtain ⟨own, isOwn⟩ := attachEndpoint_own (fun fresh => (created fresh).2) found
        rcases Socket.attachEndpoint_cases (isOwn.symm.trans found) with same | ⟨_, same | same⟩ <;>
          cases same
        rfl
      · exact ih others (by simp)

theorem attachEndpoints_returns (own : ∀ known ∈ socket, known.transport = transport)
    (created : ∀ k, createSocket (answers k) transport type ≠ none)
    (connected : transport = .nn ∨ ∀ k, (answers k).connected = true) :
    ∃ result, attachEndpoints answers type method transport i socket endpoints = some result := by
  have attaches (known : Socket) (same : known.transport = transport) (i : Nat)
      (endpoint : List Char) :
      ∃ attachment, known.attachEndpoint (answers i) method endpoint = some attachment := by
    rw [Socket.attachEndpoint_eq]
    split
    · exact ⟨_, rfl⟩
    · rcases connected with silent | all
      · rw [same, if_pos silent]
        split <;> exact ⟨_, rfl⟩
      · rw [all i, Bool.or_true, if_pos rfl]
        exact ⟨_, rfl⟩
  induction endpoints generalizing i socket with
  | nil => exact ⟨_, rfl⟩
  | cons endpoint endpoints ih =>
      obtain ⟨attachment, found⟩ : ∃ attachment,
          attachEndpoint (answers i) type method transport socket endpoint = some attachment := by
        cases socket with
        | some known => exact attaches known (own known rfl) i endpoint
        | none =>
            simp only [attachEndpoint]
            split
            · rename_i ended
              exact absurd ended (created i)
            · exact ⟨_, rfl⟩
            · rename_i new isNew
              exact attaches new (createSocket_eq isNew ▸ rfl) i endpoint
      have ownNext := attachEndpoint_transport own found
      simp only [attachEndpoints, found]
      cases attachment with
      | failed => exact ⟨_, rfl⟩
      | attached next target | missed next target =>
          obtain ⟨rest, others⟩ := @ih (i + 1) (some next) ownNext
          exact ⟨_, Option.map_eq_some_iff.mpr ⟨rest, others, rfl⟩⟩

theorem outcomes_connected (connected : ∀ k, (answers k).connected = true) :
    (outcomes answers method i endpoints).2 = [] ∧
      ((outcomes answers method i endpoints).1 = [] ↔
        ∀ endpoint ∈ endpoints.head?, (answers i).Refuses method endpoint) := by
  induction endpoints generalizing i with
  | nil => simp [outcomes]
  | cons endpoint endpoints ih =>
      simp only [outcomes, connected, Bool.or_true, if_true, List.head?_cons, Option.mem_def,
        Option.some.injEq, forall_eq']
      rw [← target_eq_none]
      cases (answers i).target method endpoint with
      | none => simp
      | some target => simpa using (@ih (i + 1)).1

end Answers

namespace Environment

variable (environment : Environment) (start : Channel Socket) (i : Nat)

def addressAt (round : Nat) : String :=
  if round = 0 then start.fAddress else environment.newAddress round i

def endpointsAt (round : Nat) : List (List Char) :=
  attachedEndpoints (environment.addressAt start i round)

/-- `ValidateChannel` accepts the channel in a round; a mark from before the loop is believed
as long as the address stays. -/
def Valid (round : Nat) : Prop :=
  fullValidation { start.toFairMQChannel with
    fAddress := environment.addressAt start i round } = .valid ∨
  start.fIsValid = true ∧ ∀ earlier ≤ round, environment.addressAt start i earlier = start.fAddress

/-- The channel has a socket after its calls in the first rounds.  It is created for the first
endpoint, where `CreateSocket` may throw. -/
def Created (rounds : Nat) : Prop :=
  start.fSocket.isSome = true ∨ ∃ round < rounds, environment.Valid start i round ∧
    createSocket (environment.answer round i 0) (channelTransport environment.transport start)
      start.fType ≠ some none

def Called (round : Nat) : Prop :=
  environment.Valid start i round ∧ environment.Created start i (round + 1)

instance (round : Nat) : Decidable (environment.Valid start i round) :=
  inferInstanceAs (Decidable (_ ∨ _))

instance (rounds : Nat) : Decidable (environment.Created start i rounds) :=
  inferInstanceAs (Decidable (_ ∨ _))

instance (round : Nat) : Decidable (environment.Called start i round) :=
  inferInstanceAs (Decidable (_ ∧ _))

def calls (rounds : Nat) : List Nat :=
  (List.range rounds).filter (environment.Called start i)

def outcomesAt (round : Nat) : List Target × List Target :=
  outcomes (environment.answer round i) start.fMethod 0 (environment.endpointsAt start i round)

def attachedBefore (rounds : Nat) : List Target :=
  (environment.calls start i rounds).flatMap fun round => (environment.outcomesAt start i round).1

def Attachable (round : Nat) : Prop :=
  environment.Called start i round ∧
    ∀ k endpoint, (environment.endpointsAt start i round)[k]? = some endpoint →
      ¬ (environment.answer round i k).Refuses start.fMethod endpoint

structure Gentle : Prop where
  fresh : start.fSocket = none
  validated : ∀ round message, fullValidation { start.toFairMQChannel with
    fAddress := environment.addressAt start i round } ≠ .exits message
  created : ∀ round k, createSocket (environment.answer round i k)
    (channelTransport environment.transport start) start.fType ≠ none
  connected : channelTransport environment.transport start = .nn ∨
    ∀ round k, (environment.answer round i k).connected = true

variable {environment start i}

theorem attachedBefore_succ (rounds : Nat) :
    environment.attachedBefore start i (rounds + 1) = environment.attachedBefore start i rounds ++
      if environment.Called start i rounds then (environment.outcomesAt start i rounds).1
      else [] := by
  simp only [attachedBefore, calls, List.range_succ, List.filter_append, List.flatMap_append]
  congr 1
  split <;> simp_all

theorem created_succ (rounds : Nat) :
    environment.Created start i (rounds + 1) ↔ environment.Created start i rounds ∨
      environment.Valid start i rounds ∧ createSocket (environment.answer rounds i 0)
        (channelTransport environment.transport start) start.fType ≠ some none := by
  simp only [Created, Nat.lt_succ_iff_lt_or_eq, or_and_right, exists_or, exists_eq_left, or_assoc]

end Environment

structure Entry.Waits (environment : Environment) (start : Channel Socket) (round rounds : Nat)
    (entry : Entry) : Prop where
  tracks : entry.Tracks environment start
  address : entry.channel.fAddress = environment.addressAt start entry.index round
  marked : entry.channel.fIsValid = true → environment.Valid start entry.index round
  unmarked : entry.channel.fIsValid = false → start.fIsValid = true →
    ∃ earlier ≤ round, environment.addressAt start entry.index earlier ≠ start.fAddress
  created : entry.channel.fSocket.isSome = true ↔ environment.Created start entry.index rounds
  log : attachedTo entry.channel.fSocket =
    attachedTo start.fSocket ++ environment.attachedBefore start entry.index rounds
  refused : ∀ earlier < rounds, ¬ environment.Attachable start entry.index earlier

structure Entry.Leaves (environment : Environment) (start : Channel Socket) (round : Nat)
    (entry : Entry) (last : Attempt) : Prop where
  attempts : entry.attempts.getLast? = some (round, last)
  attachable : environment.Attachable start entry.index round
  refused : ∀ earlier < round, ¬ environment.Attachable start entry.index earlier
  log : attachedTo entry.channel.fSocket = attachedTo start.fSocket ++
    (environment.attachedBefore start entry.index round ++
      (environment.outcomesAt start entry.index round).1)
  targets : ((environment.outcomesAt start entry.index round).1 ++
    (environment.outcomesAt start entry.index round).2).Perm last.targets
  each : last.written.length = last.targets.length
  written : entry.channel.fAddress = String.ofList ([','].intercalate last.written)
  uses : start.fSocket = none →
    UsesTransport (channelTransport environment.transport start) entry.channel

section Rounds

variable {environment : Environment} {channels : List (Channel Socket)} {start : Channel Socket}
  {entry next : Entry} {attached : Bool} {round : Nat}

namespace Entry.Waits

theorem fullValidation_eq {rounds : Nat} (waits : entry.Waits environment start round rounds) :
    fullValidation entry.channel.toFairMQChannel = fullValidation { start.toFairMQChannel with
      fAddress := environment.addressAt start entry.index round } := by
  rw [← waits.address]
  exact (congrArg fullValidation waits.tracks.conf).trans rfl

theorem validate_iff {rounds : Nat} (waits : entry.Waits environment start round rounds) :
    (validateChannel entry.channel.toFairMQChannel).1 = .valid ↔
      environment.Valid start entry.index round := by
  have checked := waits.fullValidation_eq
  simp only [validateChannel]
  cases isValid : entry.channel.fIsValid with
  | true => exact iff_of_true rfl (waits.marked isValid)
  | false =>
      have validated : fullValidation entry.channel.toFairMQChannel = .valid ↔
          environment.Valid start entry.index round := by
        rw [checked]
        refine ⟨.inl, fun valid => valid.resolve_right ?_⟩
        rintro ⟨marked, same⟩
        obtain ⟨earlier, bound, differs⟩ := waits.unmarked isValid marked
        exact differs (same earlier bound)
      rw [← validated]
      cases fullValidation entry.channel.toFairMQChannel <;> simp

theorem attachChannel_eq {rounds : Nat} (waits : entry.Waits environment start round rounds) :
    ∃ finish : Option Socket × Attempt → Channel Socket × Attempt,
      attachChannel environment.transport (environment.answer round entry.index)
          (entry.channel.configure fun conf => { conf with fIsValid := true }) =
        (attachEndpoints (environment.answer round entry.index) start.fType start.fMethod
          (channelTransport environment.transport start) 0 entry.channel.fSocket
          (environment.endpointsAt start entry.index round)).map finish ∧
      ∀ result, (finish result).2 = result.2 ∧ (finish result).1.fSocket = result.1 ∧
        (result.2.success = false → (finish result).1.fIsValid = true) := by
  have type : entry.channel.fType = start.fType :=
    (congrArg Options.FairMQChannel.fType waits.tracks.conf).trans rfl
  have method : entry.channel.fMethod = start.fMethod :=
    (congrArg Options.FairMQChannel.fMethod waits.tracks.conf).trans rfl
  rw [← waits.tracks.transport, Environment.endpointsAt, ← waits.address, ← type, ← method]
  refine ⟨_, rfl, fun (socket, attempt) => ⟨rfl, ?_, ?_⟩⟩
  · dsimp only
    split
    · exact writeAddress_socket _ _
    · rfl
  · intro (failed : attempt.success = false)
    dsimp only
    rw [failed]
    rfl

theorem outcome (waits : entry.Waits environment start round round)
    (valid : environment.Valid start entry.index round) {socket : Option Socket}
    {attempt : Attempt}
    (went : attachEndpoints (environment.answer round entry.index) start.fType start.fMethod
      (channelTransport environment.transport start) 0 entry.channel.fSocket
      (environment.endpointsAt start entry.index round) = some (socket, attempt)) :
    (attempt.success = true ↔ environment.Attachable start entry.index round) ∧
    (socket.isSome = true ↔ environment.Created start entry.index (round + 1)) ∧
    attempt.attached = (if environment.Called start entry.index round then
      (environment.outcomesAt start entry.index round).1 else []) ∧
    (environment.Called start entry.index round →
      attempt.missed = (environment.outcomesAt start entry.index round).2) := by
  have nonempty : environment.endpointsAt start entry.index round ≠ [] := List.splitOn_ne_nil _ _
  have createdNext := @Environment.created_succ environment start entry.index round
  rw [← waits.created] at createdNext
  by_cases thrown : entry.channel.fSocket = none ∧
      createSocket (environment.answer round entry.index 0)
        (channelTransport environment.transport start) start.fType = some none
  · rw [thrown.1, attachEndpoints_thrown nonempty thrown.2] at went
    cases went
    have missing : ¬ environment.Created start entry.index (round + 1) := by
      rw [createdNext, thrown.1]
      simp [thrown.2]
    have uncalled : ¬ environment.Called start entry.index round := fun called => missing called.2
    refine ⟨iff_of_false (by simp) fun attachable => uncalled attachable.1,
      iff_of_false (by simp) missing, by rw [if_neg uncalled], fun called => absurd called uncalled⟩
  · rw [not_and] at thrown
    have there : environment.Created start entry.index (round + 1) := by
      rw [createdNext]
      cases isSocket : entry.channel.fSocket with
      | some _ => exact .inl rfl
      | none => exact .inr ⟨valid, thrown isSocket⟩
    have called : environment.Called start entry.index round := ⟨valid, there⟩
    obtain ⟨lists, success⟩ := attachEndpoints_outcomes thrown went
    refine ⟨?_, iff_of_true (attachEndpoints_isSome went fun fresh => ⟨nonempty, thrown fresh⟩) there,
      ?_, fun _ => congrArg Prod.snd lists⟩
    · rw [success]
      simp only [Environment.Attachable, called, true_and, Nat.zero_add]
    · rw [if_pos called]
      exact congrArg Prod.fst lists

theorem attach (waits : entry.Waits environment start round round)
    (done : entry.attach environment round = some (attached, next)) :
    if attached then ∃ last, next.Leaves environment start round last
    else next.Waits environment start round (round + 1) := by
  have tracked := waits.tracks.attach done
  rcases Entry.attach_cases done with
    ⟨rfl, rfl, message, invalid⟩ | ⟨channel, attempt, validated, went, rfl, rfl⟩
  · have rejected : ¬ environment.Valid start next.index round := by
      rw [← waits.validate_iff, invalid]
      simp
    have uncalled : ¬ environment.Called start next.index round := fun called => rejected called.1
    refine { waits with created := ?_, log := ?_, refused := ?_ }
    · rw [waits.created, Environment.created_succ]
      exact ⟨.inl, fun created => created.resolve_right fun now => rejected now.1⟩
    · rw [waits.log, Environment.attachedBefore_succ, if_neg uncalled, List.append_nil]
    · exact Nat.forall_lt_succ_right.mpr
        ⟨waits.refused, fun attachable => uncalled attachable.1⟩
  · have valid := waits.validate_iff.mp validated
    have attempted := attachChannel_attempted went
    obtain ⟨finish, called, finishes⟩ := waits.attachChannel_eq
    obtain ⟨⟨socket, attempt⟩, through, same⟩ := Option.map_eq_some_iff.mp (called.symm.trans went)
    obtain ⟨rfl, rfl, marks⟩ := same ▸ finishes (socket, attempt)
    obtain ⟨success, created, made, missed⟩ := waits.outcome valid through
    cases succeeded : attempt.success with
    | true =>
        have attachable := success.mp succeeded
        rw [if_pos attachable.1] at made
        refine ⟨attempt, by simp, attachable, waits.refused, ?_, ?_, attempted.each, ?_, ?_⟩
        · rw [← made, ← List.append_assoc, ← waits.log]
          exact attempted.log
        · rw [← made, ← missed attachable.1]
          exact attempted.targets
        · exact attempted.written succeeded
        · rwa [succeeded, if_pos rfl] at tracked
    | false =>
        simp only [succeeded, Bool.false_eq_true, if_false] at tracked ⊢
        refine ⟨tracked.1, tracked.2.trans waits.address, fun _ => valid, ?_, created, ?_, ?_⟩
        · intro unmarked
          cases unmarked.symm.trans (marks succeeded)
        · rw [Environment.attachedBefore_succ, ← made, ← List.append_assoc, ← waits.log]
          exact attempted.log
        · refine Nat.forall_lt_succ_right.mpr ⟨waits.refused, fun attachable => ?_⟩
          exact absurd (success.mpr attachable) (by rw [succeeded]; simp)

theorem refresh {rounds : Nat} (waits : entry.Waits environment start round rounds) :
    (entry.refresh environment (round + 1)).Waits environment start (round + 1) rounds := by
  obtain ⟨tracks, address⟩ := @Entry.Tracks.refresh _ (round + 1) _ _ waits.tracks
  have later : environment.newAddress (round + 1) entry.index =
      environment.addressAt start entry.index (round + 1) := by
    rw [Environment.addressAt, if_neg (Nat.succ_ne_zero round)]
  simp only [Entry.refresh] at tracks ⊢
  split at tracks
  · rename_i same
    rw [if_pos same]
    refine { waits with address := same.symm.trans later, marked := ?_, unmarked := ?_ }
    · intro marked
      have kept := later.symm.trans (same.trans waits.address)
      rcases waits.marked marked with valid | ⟨marked, still⟩
      · exact .inl (by rw [kept]; exact valid)
      · refine .inr ⟨marked, fun earlier bound => ?_⟩
        rcases Nat.le_succ_iff.mp bound with bound | rfl
        · exact still earlier bound
        · exact kept.trans (still round (Nat.le_refl _))
    · intro unmarked marked
      obtain ⟨earlier, bound, differs⟩ := waits.unmarked unmarked marked
      exact ⟨earlier, Nat.le_succ_of_le bound, differs⟩
  · rename_i differs
    rw [if_neg differs]
    refine { waits with tracks := tracks, address := later, marked := ?_, unmarked := ?_ }
    · intro marked
      cases marked
    · intro _ _
      rw [waits.address, later] at differs
      by_cases same : environment.addressAt start entry.index round = start.fAddress
      · exact ⟨round + 1, Nat.le_refl _, same ▸ differs⟩
      · exact ⟨round, Nat.le_succ round, same⟩

theorem initial (environment : Environment) (i : Nat) (start : Channel Socket) :
    Entry.Waits environment start 0 0 { index := i, channel := start } := by
  refine ⟨.start environment i start, rfl, ?_, ?_, ?_, (List.append_nil _).symm, by simp⟩
  · intro marked
    refine .inr ⟨marked, fun earlier bound => ?_⟩
    rw [Nat.le_zero.mp bound]
    rfl
  · intro unmarked marked
    cases unmarked.symm.trans marked
  · simp [Environment.Created]

theorem returns {rounds : Nat} (waits : entry.Waits environment start round rounds)
    (gentle : environment.Gentle start entry.index) :
    ∃ result, entry.attach environment round = some result := by
  simp only [Entry.attach]
  split
  · rename_i message _ exits
    simp only [validateChannel] at exits
    split at exits
    · cases exits
    · have checked := waits.fullValidation_eq
      split at exits
      · cases exits
      · exact absurd (checked.symm.trans (Prod.mk.inj exits).1) (gentle.validated round message)
  · exact ⟨_, rfl⟩
  · rename_i validated validates
    cases validateChannel_valid validates
    obtain ⟨finish, called, _⟩ := waits.attachChannel_eq
    obtain ⟨result, went⟩ := @attachEndpoints_returns start.fMethod
      (environment.answer round entry.index) start.fType _ 0 _
      (environment.endpointsAt start entry.index round)
      (waits.tracks.own gentle.fresh) (gentle.created round)
      (gentle.connected.imp_right fun all => all round)
    rw [went] at called
    exact ⟨_, Option.map_eq_some_iff.mpr ⟨_, called, rfl⟩⟩

end Entry.Waits

/-- Every channel of the loop is in the list as the environment has left it, or has left the
list in the first round in which the environment let it. -/
theorem connectLoop_waits {limit : Int} {iterations : Nat} {state : Initialization}
    (ran : connectLoop environment limit channels iterations = some state) :
    (∀ entry ∈ state.uninitialized, ∃ start, channels[entry.index]? = some start ∧
      entry.Waits environment start iterations (iterations + 1)) ∧
    ∀ entry ∈ state.initialized, ∃ round ≤ iterations, ∃ start last,
      channels[entry.index]? = some start ∧ entry.Leaves environment start round last := by
  let ready (round : Nat) (entry : Entry) : Prop :=
    ∃ start, channels[entry.index]? = some start ∧ entry.Waits environment start round round
  let waits (round : Nat) (entry : Entry) : Prop :=
    ∃ start, channels[entry.index]? = some start ∧ entry.Waits environment start round (round + 1)
  let leaves (round : Nat) (entry : Entry) : Prop :=
    ∃ start last, channels[entry.index]? = some start ∧ entry.Leaves environment start round last
  have attach : ∀ {round entry next attached}, ready round entry →
      entry.attach environment round = some (attached, next) →
      if attached then leaves round next else waits round next := by
    rintro round entry next attached ⟨start, found, isReady⟩ done
    have result := isReady.attach done
    rw [← Entry.attach_index done] at found
    cases attached with
    | true =>
        obtain ⟨last, left⟩ := result
        exact ⟨start, last, found, left⟩
    | false => exact ⟨start, found, result⟩
  have refresh : ∀ {round entry}, waits round entry →
      ready (round + 1) (entry.refresh environment (round + 1)) := by
    rintro round entry ⟨start, found, waiting⟩
    exact ⟨start, by rwa [Entry.refresh_index], waiting.refresh⟩
  have begins : ∀ entry ∈ entriesOf channels, ready 0 entry := by
    intro entry member
    obtain ⟨start, found, isEntry⟩ := mem_entriesOf member
    exact ⟨start, found, isEntry ▸ .initial environment _ start⟩
  exact connectLoop_entries attach refresh begins ran

theorem connectLoop_transport {limit : Int} {iterations : Nat} {state : Initialization}
    (ran : connectLoop environment limit channels iterations = some state)
    (removed : entry ∈ state.initialized) (found : channels[entry.index]? = some start)
    (fresh : start.fSocket = none) :
    UsesTransport (channelTransport environment.transport start) entry.channel := by
  obtain ⟨_, _, other, _, foundOther, leaves⟩ := (connectLoop_waits ran).2 entry removed
  cases foundOther.symm.trans found
  exact leaves.uses fresh

end Rounds

/-- The loop has called `Bind` or `Connect` with success once for each target of the last
call. -/
def Entry.AttachedOnce (start : Channel Socket) (entry : Entry) (last : Attempt) : Prop :=
  ∃ made, attachedTo entry.channel.fSocket = attachedTo start.fSocket ++ made ∧
    made.Perm last.targets

theorem Entry.Leaves.once_iff {environment : Environment} {start : Channel Socket} {round : Nat}
    {entry : Entry} {last : Attempt} (leaves : entry.Leaves environment start round last) :
    entry.AttachedOnce start last ↔ (environment.attachedBefore start entry.index round).Perm
      (environment.outcomesAt start entry.index round).2 := by
  have swapped := List.perm_append_comm.trans leaves.targets
  constructor
  · rintro ⟨made, log, once⟩
    rw [List.append_cancel_left (log.symm.trans leaves.log)] at once
    exact (List.perm_append_right_iff _).mp (once.trans swapped.symm)
  · intro missed
    exact ⟨_, leaves.log, ((List.perm_append_right_iff _).mpr missed).trans swapped⟩

theorem Environment.attachedBefore_eq_nil {environment : Environment} {start : Channel Socket}
    {i rounds : Nat} (connected : ∀ round k, (environment.answer round i k).connected = true) :
    environment.attachedBefore start i rounds = [] ↔
      ∀ round < rounds, environment.Called start i round →
        ∀ endpoint ∈ (environment.endpointsAt start i round).head?,
          (environment.answer round i 0).Refuses start.fMethod endpoint := by
  simp only [attachedBefore, calls, List.flatMap_eq_nil_iff, List.mem_filter, List.mem_range,
    decide_eq_true_eq, and_imp]
  refine forall_congr' fun round => imp_congr_right fun _ => imp_congr_right fun _ => ?_
  exact (outcomes_connected (connected round)).2

/-- A channel leaves the list in the first round in which the environment lets it, with a
target for each endpoint of its address.  Each of them has been attached once exactly if the
environment lets the earlier calls attach what it makes the last one miss; where no `Connect`
fails, exactly if each of the earlier calls is stopped at its first endpoint. -/
theorem endpoints_attached_once_iff {environment : Environment}
    {channels : List (Channel Socket)} {limit : Int} {iterations : Nat} {state : Initialization}
    {entry : Entry} (ran : connectLoop environment limit channels iterations = some state)
    (removed : entry ∈ state.initialized) :
    ∃ round ≤ iterations, ∃ start last, channels[entry.index]? = some start ∧
      environment.Attachable start entry.index round ∧
      (∀ earlier < round, ¬ environment.Attachable start entry.index earlier) ∧
      entry.attempts.getLast? = some (round, last) ∧
      entry.channel.fAddress = String.ofList ([','].intercalate last.written) ∧
      last.written.length = last.targets.length ∧
      (entry.AttachedOnce start last ↔ (environment.attachedBefore start entry.index round).Perm
        (environment.outcomesAt start entry.index round).2) ∧
      ((∀ round k, (environment.answer round entry.index k).connected = true) →
        (entry.AttachedOnce start last ↔
          ∀ earlier < round, environment.Called start entry.index earlier →
            ∀ endpoint ∈ (environment.endpointsAt start entry.index earlier).head?,
              (environment.answer earlier entry.index 0).Refuses start.fMethod endpoint)) := by
  obtain ⟨round, bound, start, last, found, leaves⟩ := (connectLoop_waits ran).2 entry removed
  refine ⟨round, bound, start, last, found, leaves.attachable, leaves.refused, leaves.attempts,
    leaves.written, leaves.each, leaves.once_iff, fun connected => ?_⟩
  have missed : (environment.outcomesAt start entry.index round).2 = [] :=
    (outcomes_connected (connected round)).1
  rw [leaves.once_iff, missed, List.perm_nil, Environment.attachedBefore_eq_nil connected]

def lateHost : Environment where
  transport := .zmq
  answer := fun round _ endpoint =>
    if round = 0 ∧ endpoint = 1 then { resolvedHost := "" } else { resolvedHost := "10.0.0.1" }
  newAddress := fun _ _ => "tcp://a:1,tcp://b:2"

theorem one_endpoint_attached_once :
    ∃ state entry, connectLoop lateHost 600 [.ofAddress "push" "connect" "tcp://a:1"] 0 =
        some state ∧ state.initialized = [entry] ∧
      ∃ last, entry.AttachedOnce (.ofAddress "push" "connect" "tcp://a:1") last ∧
        last.targets = [⟨false, "tcp://10.0.0.1:1".toList⟩] := by
  obtain ⟨round, bound, start, last, found, _, _, isLast, _, _, once, _⟩ :=
    endpoints_attached_once_iff
      (rfl : connectLoop lateHost 600 [.ofAddress "push" "connect" "tcp://a:1"] 0 = some _)
      (List.mem_singleton.mpr rfl)
  cases Nat.le_zero.mp bound
  cases found
  cases isLast
  exact ⟨_, _, rfl, rfl, _, once.mpr .nil, by decide⟩

/-- The first endpoint is attached again when the second can be. -/
theorem first_endpoint_attached_twice :
    ∃ state entry socket, connectLoop lateHost 600
        [.ofAddress "push" "connect" "tcp://a:1,tcp://b:2"] 1 = some state ∧
      state.uninitialized = [] ∧ state.initialized = [entry] ∧
      entry.channel.fSocket = some socket ∧
      socket.attached = [⟨false, "tcp://10.0.0.1:1".toList⟩, ⟨false, "tcp://10.0.0.1:1".toList⟩,
        ⟨false, "tcp://10.0.0.1:2".toList⟩] :=
  ⟨_, _, _, rfl, rfl, rfl, rfl, by decide⟩

section Ends

variable {environment : Environment} {channels : List (Channel Socket)}

theorem attachChannels_returns {round : Nat} {entries : List Entry}
    (each : ∀ entry ∈ entries, ∃ result, entry.attach environment round = some result) :
    ∃ result, attachChannels environment round entries = some result := by
  induction entries with
  | nil => exact ⟨_, rfl⟩
  | cons entry entries ih =>
      obtain ⟨⟨attached, next⟩, went⟩ := each entry List.mem_cons_self
      obtain ⟨rest, others⟩ := ih fun other member => each other (List.mem_cons_of_mem _ member)
      simp only [attachChannels, went]
      exact ⟨_, Option.map_eq_some_iff.mpr ⟨rest, others, rfl⟩⟩

theorem connectLoop_returns
    (gentle : ∀ i start, channels[i]? = some start → environment.Gentle start i) (limit : Nat)
    {iterations : Nat} (fits : iterations + 1 < 2 ^ 31) :
    ∃ state, connectLoop environment limit channels iterations = some state := by
  induction iterations with
  | zero =>
      obtain ⟨result, went⟩ := @attachChannels_returns environment 0 (entriesOf channels) (by
        intro entry member
        obtain ⟨start, found, isEntry⟩ := mem_entriesOf member
        rw [isEntry]
        exact (Entry.Waits.initial environment entry.index start).returns (gentle _ _ found))
      exact ⟨_, Option.map_eq_some_iff.mpr ⟨result, went, rfl⟩⟩
  | succ iterations ih =>
      obtain ⟨state, ran⟩ := ih (by omega)
      simp only [connectLoop, ran]
      split
      · exact ⟨_, rfl⟩
      · rename_i unfinished
        have counted := (connectLoop_counters ran unfinished).1
        obtain ⟨result, went⟩ := @attachChannels_returns environment (iterations + 1)
          (state.uninitialized.map (Entry.refresh environment (iterations + 1))) (by
            refine List.forall_mem_map.mpr fun entry member => ?_
            obtain ⟨start, found, waits⟩ := (connectLoop_waits ran).1 entry member
            refine waits.refresh.returns ?_
            rw [Entry.refresh_index]
            exact gentle _ _ found)
        simp only [Initialization.iterate]
        rw [if_pos (by omega)]
        exact ⟨_, Option.map_eq_some_iff.mpr ⟨result, went, rfl⟩⟩

theorem connectLoop_ended_iff {limit : Int} {iterations : Nat} {state : Initialization}
    (ran : connectLoop environment limit channels iterations = some state) :
    state.uninitialized = [] ↔ ∀ i start, channels[i]? = some start →
      ∃ round ≤ iterations, environment.Attachable start i round := by
  obtain ⟨waiting, left⟩ := connectLoop_waits ran
  constructor
  · intro ended i start found
    have indices := connectLoop_indices ran
    rw [ended, List.nil_append] at indices
    obtain ⟨bound, -⟩ := List.getElem?_eq_some_iff.mp found
    obtain ⟨entry, member, rfl⟩ :=
      List.mem_map.mp (indices.mem_iff.mpr (List.mem_range.mpr bound))
    obtain ⟨round, isRound, other, last, foundOther, leaves⟩ := left entry member
    cases foundOther.symm.trans found
    exact ⟨round, isRound, leaves.attachable⟩
  · intro all
    refine List.eq_nil_iff_forall_not_mem.mpr fun entry member => ?_
    obtain ⟨start, found, waits⟩ := waiting entry member
    obtain ⟨round, bound, attachable⟩ := all entry.index start found
    exact waits.refused round (Nat.lt_succ_of_le bound) attachable

end Ends

def Environment.Hopeless (environment : Environment) (channels : List (Channel Socket)) : Prop :=
  ∃ i start, channels[i]? = some start ∧ ∀ round, ¬ environment.Attachable start i round

/-- The loop has ended, with an error, in the iteration in which `numAttempts` passes
`maxAttempts` or before. -/
def Environment.GivesUp (environment : Environment) (limit : Int)
    (channels : List (Channel Socket)) : Prop :=
  ∃ iterations ≤ limit.toNat + 1, ∃ state,
    connectLoop environment limit channels iterations = some state ∧
      state.uninitialized = [] ∧ 0 < state.errors

def unknownHost : Environment where
  transport := .zmq
  answer := fun _ _ _ => { resolvedHost := "" }
  newAddress := fun _ _ => "tcp://a:1"

theorem unknownHost_address (round : Nat) :
    unknownHost.addressAt (.ofAddress "push" "connect" "tcp://a:1") 0 round = "tcp://a:1" := by
  simp only [Environment.addressAt]
  split <;> rfl

theorem unknownHost_gentle : ∀ i start,
    [Channel.ofAddress "push" "connect" "tcp://a:1"][i]? = some start →
      unknownHost.Gentle start i := by
  intro i start found
  match i, found with
  | 0, rfl =>
      refine ⟨rfl, fun round message => ?_, fun _ _ => Option.some_ne_none _, .inr fun _ _ => rfl⟩
      rw [unknownHost_address]
      exact fun exits => Validation.noConfusion exits

theorem unknownHost_hopeless :
    unknownHost.Hopeless [.ofAddress "push" "connect" "tcp://a:1"] := by
  refine ⟨0, _, rfl, fun round attachable => ?_⟩
  have endpoints : unknownHost.endpointsAt (.ofAddress "push" "connect" "tcp://a:1") 0 round =
      attachedEndpoints "tcp://a:1" := by
    rw [Environment.endpointsAt, unknownHost_address]
  refine attachable.2 0 "tcp://a:1".toList (by rw [endpoints]; decide) (.inl ⟨⟨by decide, ?_⟩, rfl⟩)
  decide

end FairMQ.Device
