import FairMQ.Data.Keys
import FairMQ.Device.Attach
import FairMQ.Options.Coherence
import Mathlib.Data.List.Forall2

namespace FairMQ.Device

open FairMQ.Channels
open FairMQ.Data
open FairMQ.Options (Transport ProgOptions channelKey)

/-- `BindEndpoint` with the endpoint it leaves, as long as `ports` more can be drawn. -/
def boundEndpoint (answer : Answer) : Nat → Nat → List Char → Bool × List Char
  | 0, numAttempts, endpoint => (answer.bound numAttempts, endpoint)
  | ports + 1, numAttempts, endpoint =>
      if answer.bound numAttempts then (true, endpoint)
      else
        boundEndpoint answer ports (numAttempts + 1)
          (withPort endpoint (answer.randomPort numAttempts))

def recordAddress (name : String) (index : Nat) (old new : String) (options : ProgOptions) :
    Option ProgOptions :=
  if new = old then some options
  else
    match (Options.setValue (channelKey name index .address) (.string new)).run options with
    | .ok _ options => some options
    | .error _ _ => none

def attachConfigured (deviceTransport : Transport) (answers : Nat → Answer) (name : String)
    (index : Nat) (options : ProgOptions) (channel : Channel Socket) :
    Option (ProgOptions × Channel Socket × Attempt) :=
  (attachChannel deviceTransport answers channel).bind fun (after, attempt) =>
    if attempt.success then
      (recordAddress name index channel.fAddress after.fAddress options).map (·, after, attempt)
    else some (options, after, attempt)

def PortReplaced (low high : Nat) (endpoint after : List Char) : Prop :=
  ∃ front back port, endpoint = front ++ ':' :: back ∧ ':' ∉ back ∧
    low ≤ port ∧ port ≤ high ∧ after = front ++ ':' :: (toString port).toList

def OnlyPortChanged (low high : Nat) (endpoint after : List Char) : Prop :=
  after = endpoint ∨ hasScheme "tcp://" endpoint ∧ PortReplaced low high endpoint after

def HostResolved (address resolved : List Char) : Prop :=
  resolved = address ∨ ∃ host host' rest, ':' ∉ host ∧
    address = "tcp://".toList ++ host ++ ':' :: rest ∧
    resolved = "tcp://".toList ++ host' ++ ':' :: rest

def modifierOf (endpoint : List Char) : List Char :=
  if isModified endpoint then endpoint.take 1 else []

def WrittenBack (low high : Nat) (endpoint written : List Char) : Prop :=
  ∃ resolved after, HostResolved (withoutModifier endpoint) resolved ∧
    OnlyPortChanged low high resolved after ∧ written = modifierOf endpoint ++ after

def lastPort (answer : Answer) : Nat → Nat → Option Nat
  | 0, _ => none
  | ports + 1, numAttempts =>
      if answer.bound numAttempts then none
      else (lastPort answer ports (numAttempts + 1)).or (some (answer.randomPort numAttempts))

def PortAllowed (answer : Answer) (address : List Char) : Prop :=
  hasScheme "tcp://" address ∨ ∀ port ∈ lastPort answer 1000 0, withPort address port = address

def FrameKept (answer : Answer) (method : String) (endpoint : List Char) : Prop :=
  endpoint.head? ≠ some '>' ∧
    ((readEndpoint method endpoint).1 = true → PortAllowed answer (withoutModifier endpoint))

section Bind

variable {answer : Answer} {ports numAttempts : Nat} {endpoint : List Char}

theorem bindEndpoint_eq :
    bindEndpoint answer (ports + 1) numAttempts endpoint =
      if (boundEndpoint answer ports numAttempts endpoint).1 then
        some (boundEndpoint answer ports numAttempts endpoint).2 else none := by
  induction ports generalizing numAttempts endpoint with
  | zero => cases bound : answer.bound numAttempts <;> simp [bindEndpoint, boundEndpoint, bound]
  | succ ports ih =>
      rw [bindEndpoint, boundEndpoint]
      split
      · rfl
      · exact ih

theorem withPort_cut {front back : List Char} (free : ':' ∉ back) (port : Nat) :
    withPort (front ++ ':' :: back) port = front ++ ':' :: (toString port).toList := by
  have reversed : (front ++ ':' :: back).reverse = back.reverse ++ ':' :: front.reverse := by simp
  rw [withPort, reversed, dropWhile_cut (by simpa using free)]
  simp

theorem withPort_of_free (free : ':' ∉ endpoint) (port : Nat) :
    withPort endpoint port = (toString port).toList := by
  have nothing : endpoint.reverse.dropWhile (· ≠ ':') = [] := by
    rw [List.dropWhile_eq_nil_iff]
    intro letter member
    simpa using ne_of_mem_of_not_mem (List.mem_reverse.mp member) free
  rw [withPort, nothing]
  rfl

theorem port_free (port : Nat) : ':' ∉ (toString port).toList :=
  digits_free (by decide) port

theorem withPort_withPort (endpoint : List Char) (port other : Nat) :
    withPort (withPort endpoint port) other = withPort endpoint other := by
  by_cases colon : ':' ∈ endpoint
  · obtain ⟨front, back, rfl, free⟩ := exists_last_cut colon
    rw [withPort_cut free, withPort_cut (port_free port), withPort_cut free]
  · rw [withPort_of_free colon, withPort_of_free (port_free port), withPort_of_free colon]

theorem boundEndpoint_eq :
    (boundEndpoint answer ports numAttempts endpoint).2 =
      ((lastPort answer ports numAttempts).map (withPort endpoint)).getD endpoint := by
  induction ports generalizing numAttempts endpoint with
  | zero => rfl
  | succ ports ih =>
      rw [boundEndpoint, lastPort]
      split
      · rfl
      · rw [ih]
        cases lastPort answer ports (numAttempts + 1) with
        | none => rfl
        | some port => exact withPort_withPort endpoint _ port

theorem lastPort_mem {low high : Nat}
    (inRange : ∀ n, low ≤ answer.randomPort n ∧ answer.randomPort n ≤ high) {port : Nat}
    (drawn : lastPort answer ports numAttempts = some port) : low ≤ port ∧ port ≤ high := by
  induction ports generalizing numAttempts with
  | zero => cases drawn
  | succ ports ih =>
      rw [lastPort] at drawn
      split at drawn
      · cases drawn
      · cases later : lastPort answer ports (numAttempts + 1) with
        | none =>
            rw [later] at drawn
            cases drawn
            exact inRange numAttempts
        | some other =>
            rw [later] at drawn
            cases drawn
            exact ih later

theorem colon_of_tcp (tcp : hasScheme "tcp://" endpoint) : ':' ∈ endpoint := by
  obtain ⟨rest, rfl⟩ := List.isPrefixOf_iff_prefix.mp tcp
  simp

theorem boundEndpoint_tcp {low high : Nat}
    (inRange : ∀ n, low ≤ answer.randomPort n ∧ answer.randomPort n ≤ high)
    (tcp : hasScheme "tcp://" endpoint) :
    OnlyPortChanged low high endpoint (boundEndpoint answer ports numAttempts endpoint).2 := by
  rw [boundEndpoint_eq]
  cases drawn : lastPort answer ports numAttempts with
  | none => exact .inl rfl
  | some port =>
      obtain ⟨front, back, rfl, free⟩ := exists_last_cut (colon_of_tcp tcp)
      obtain ⟨above, below⟩ := lastPort_mem inRange drawn
      exact .inr ⟨tcp, front, back, port, rfl, free, above, below, withPort_cut free port⟩

theorem boundEndpoint_unchanged_iff :
    (boundEndpoint answer ports numAttempts endpoint).2 = endpoint ↔
      ∀ port ∈ lastPort answer ports numAttempts, withPort endpoint port = endpoint := by
  rw [boundEndpoint_eq]
  cases lastPort answer ports numAttempts <;> simp

theorem onlyPortChanged_iff {low high : Nat}
    (inRange : ∀ n, low ≤ answer.randomPort n ∧ answer.randomPort n ≤ high) :
    OnlyPortChanged low high endpoint (boundEndpoint answer 1000 0 endpoint).2 ↔
      PortAllowed answer endpoint := by
  by_cases tcp : hasScheme "tcp://" endpoint = true
  · exact iff_of_true (boundEndpoint_tcp inRange tcp) (.inl tcp)
  · rw [OnlyPortChanged, PortAllowed, or_iff_left fun changed => tcp changed.1, or_iff_right tcp]
    exact boundEndpoint_unchanged_iff

end Bind

section Write

variable {answer : Answer} {method : String} {socket : Socket} {endpoint : List Char}

structure TargetOf (answer : Answer) (method : String) (endpoint : List Char) (target : Target)
    (address : List Char) : Prop where
  resolved : resolveAddress answer target.bind (withoutModifier endpoint) = some address
  bind : target.bind = (readEndpoint method endpoint).1
  bound : target.address = if target.bind then (boundEndpoint answer 1000 0 address).2 else address

theorem readEndpoint_address (method : String) (endpoint : List Char) :
    (readEndpoint method endpoint).2 = withoutModifier endpoint := by
  unfold readEndpoint
  split
  · rfl
  · rfl
  · rfl
  · rename_i noPlus noGreater noAt
    cases endpoint with
    | nil => rfl
    | cons first rest =>
        have plain : isModifier first = false := by
          simp only [isModifier, Bool.or_eq_false_iff, beq_eq_false_iff_ne]
          exact ⟨⟨fun same => noAt rest (by rw [same]), fun same => noPlus rest (by rw [same])⟩,
            fun same => noGreater rest (by rw [same])⟩
        simp [withoutModifier, isModified, plain]

theorem tcp_wellFormed {address : List Char} (wellFormed : WellFormedAddress address)
    (tcp : hasScheme "tcp://" address) :
    ∃ host rest, address = "tcp://".toList ++ host ++ ':' :: rest ∧ ':' ∉ host := by
  obtain ⟨scheme, isScheme, text, rfl, _, hasPort⟩ := wellFormed
  rcases mem_schemes isScheme with rfl | rfl | rfl | rfl
  · obtain ⟨host, rest, rfl, free⟩ := List.eq_append_cons_of_mem (hasPort rfl)
    exact ⟨host, rest, (List.append_assoc ..).symm, free⟩
  · cases tcp
  · cases tcp
  · cases tcp

theorem hostResolved_of_resolveAddress {bind : Bool} {address resolved : List Char}
    (wellFormed : WellFormedAddress address)
    (done : resolveAddress answer bind address = some resolved) :
    HostResolved address resolved := by
  by_cases tcp : hasScheme "tcp://" address = true
  · obtain ⟨host, rest, rfl, free⟩ := tcp_wellFormed wellFormed tcp
    have text : ("tcp://".toList ++ host ++ ':' :: rest).drop 6 = host ++ ':' :: rest := by
      simp
    simp only [resolveAddress, tcp, if_true, text, dropWhile_cut free] at done
    split at done
    · cases done
      exact .inl rfl
    · split at done
      · cases done
      · rw [if_pos (by simp)] at done
        cases done
        exact .inr ⟨host, _, rest, free, rfl, rfl⟩
  · simp only [resolveAddress, tcp] at done
    cases done
    exact .inl rfl

def Attachment.target? : Attachment → Option Target
  | .failed _ => none
  | .attached _ target | .missed _ target => some target

theorem Socket.attachEndpoint_target {attachment : Attachment} {target : Target}
    (done : socket.attachEndpoint answer method endpoint = some attachment)
    (isTarget : attachment.target? = some target) :
    ∃ address, TargetOf answer method endpoint target address := by
  simp only [Socket.attachEndpoint, readEndpoint_address] at done
  split at done
  · cases done
    cases isTarget
  · rename_i address resolved
    split at done
    · rename_i binds
      rw [bindCalls, bindEndpoint_eq] at done
      split at done
      · cases done
        cases isTarget
      · rename_i last isLast
        cases done
        cases isTarget
        split at isLast
        · cases isLast
          exact ⟨address, by rwa [← binds], binds.symm, rfl⟩
        · cases isLast
    · rename_i connects
      have isConnect : (readEndpoint method endpoint).1 = false := by simpa using connects
      rw [isConnect] at resolved
      simp only [connectEndpoint] at done
      split at done
      · cases done
        cases isTarget
        exact ⟨address, resolved, isConnect.symm, rfl⟩
      · split at done
        · cases done
          cases isTarget
          exact ⟨address, resolved, isConnect.symm, rfl⟩
        · cases done

theorem attachEndpoint_target {type : String} {transport : Transport} {socket : Option Socket}
    {attachment : Attachment} {target : Target}
    (done : attachEndpoint answer type method transport socket endpoint = some attachment)
    (isTarget : attachment.target? = some target) :
    ∃ address, TargetOf answer method endpoint target address := by
  rcases attachEndpoint_cases done with ⟨_, rfl⟩ | ⟨own, went, _⟩
  · cases isTarget
  · exact own.attachEndpoint_target went isTarget

def WrittenFor (answers : Nat → Answer) (method : String) (place : List Char × Nat)
    (written : List Char) : Prop :=
  ∃ target address, written = writeEndpoint place.1 target ∧
    TargetOf (answers place.2) method place.1 target address

theorem attachEndpoints_written {answers : Nat → Answer} {type : String} {transport : Transport}
    {i : Nat} {socket after : Option Socket} {attempt : Attempt} {endpoints : List (List Char)}
    (done : attachEndpoints answers type method transport i socket endpoints =
      some (after, attempt)) (success : attempt.success = true) :
    List.Forall₂ (WrittenFor answers method) (endpoints.zipIdx i) attempt.written := by
  induction endpoints generalizing i socket attempt with
  | nil =>
      cases done
      exact .nil
  | cons endpoint endpoints ih =>
      simp only [attachEndpoints] at done
      split at done
      · cases done
      · cases done
        cases success
      · rename_i next target found
        obtain ⟨⟨last, rest⟩, others, same⟩ := Option.map_eq_some_iff.mp done
        cases same
        obtain ⟨address, targetOf⟩ := attachEndpoint_target found rfl
        exact .cons ⟨target, address, rfl, targetOf⟩ (ih others success)
      · rename_i next target found
        obtain ⟨⟨last, rest⟩, others, same⟩ := Option.map_eq_some_iff.mp done
        cases same
        obtain ⟨address, targetOf⟩ := attachEndpoint_target found rfl
        exact .cons ⟨target, address, rfl, targetOf⟩ (ih others success)

variable {target : Target} {address : List Char} {low high : Nat}

theorem resolved_of_not_tcp (targetOf : TargetOf answer method endpoint target address)
    (other : ¬ hasScheme "tcp://" (withoutModifier endpoint) = true) :
    address = withoutModifier endpoint := by
  have resolved := targetOf.resolved
  simp only [resolveAddress, other] at resolved
  exact (Option.some.inj resolved).symm

theorem tcp_of_hostResolved {before after : List Char} (resolved : HostResolved before after)
    (tcp : hasScheme "tcp://" before) : hasScheme "tcp://" after := by
  rcases resolved with rfl | ⟨host, host', rest, _, _, rfl⟩
  · exact tcp
  · exact List.isPrefixOf_iff_prefix.mpr ⟨host' ++ ':' :: rest, (List.append_assoc ..).symm⟩

theorem eq_of_hostResolved {before after : List Char} (resolved : HostResolved before after)
    (other : ¬ hasScheme "tcp://" before = true) : after = before := by
  rcases resolved with same | ⟨host, host', rest, _, rfl, _⟩
  · exact same
  · exact absurd (List.isPrefixOf_iff_prefix.mpr ⟨host ++ ':' :: rest, (List.append_assoc ..).symm⟩)
      other

theorem target_changed_iff
    (inRange : ∀ n, low ≤ answer.randomPort n ∧ answer.randomPort n ≤ high)
    (wellFormed : WellFormedAddress (withoutModifier endpoint))
    (targetOf : TargetOf answer method endpoint target address) :
    (∃ resolved, HostResolved (withoutModifier endpoint) resolved ∧
        OnlyPortChanged low high resolved target.address) ↔
      ((readEndpoint method endpoint).1 = true → PortAllowed answer (withoutModifier endpoint)) := by
  have host := hostResolved_of_resolveAddress wellFormed targetOf.resolved
  have bound := targetOf.bound
  rw [← targetOf.bind]
  by_cases binds : target.bind = true
  · rw [if_pos binds] at bound
    by_cases tcp : hasScheme "tcp://" (withoutModifier endpoint) = true
    · refine iff_of_true ⟨address, host, ?_⟩ fun _ => .inl tcp
      rw [bound]
      exact boundEndpoint_tcp inRange (tcp_of_hostResolved host tcp)
    · have same := resolved_of_not_tcp targetOf tcp
      rw [same] at bound
      simp only [binds, true_implies]
      constructor
      · rintro ⟨resolved, hostOk, portOk⟩
        rw [eq_of_hostResolved hostOk tcp] at portOk
        exact .inr (boundEndpoint_unchanged_iff.mp (bound ▸ portOk.resolve_right (tcp ·.1)))
      · intro allowed
        refine ⟨_, .inl rfl, .inl ?_⟩
        rw [bound]
        exact boundEndpoint_unchanged_iff.mpr (allowed.resolve_left tcp)
  · rw [if_neg binds] at bound
    exact iff_of_true ⟨address, host, .inl bound⟩ fun impossible => absurd impossible binds

theorem writeEndpoint_eq (bind : target.bind = (readEndpoint method endpoint).1)
    (noGreater : endpoint.head? ≠ some '>') :
    writeEndpoint endpoint target = modifierOf endpoint ++ target.address := by
  cases modified : isModified endpoint with
  | false => simp [writeEndpoint, modifierOf, modified]
  | true =>
      cases endpoint with
      | nil => cases modified
      | cons first rest =>
          simp only [isModified, isModifier, List.head?_cons, Option.any_some, Bool.or_eq_true,
            beq_iff_eq] at modified
          rcases modified with (rfl | rfl) | rfl
          · rw [writeEndpoint, bind]
            rfl
          · rw [writeEndpoint, bind]
            rfl
          · exact absurd rfl noGreater

theorem writtenBack_iff
    (inRange : ∀ n, low ≤ answer.randomPort n ∧ answer.randomPort n ≤ high)
    (wellFormed : WellFormedAddress (withoutModifier endpoint))
    (targetOf : TargetOf answer method endpoint target address) :
    WrittenBack low high endpoint (writeEndpoint endpoint target) ↔
      FrameKept answer method endpoint := by
  by_cases greater : endpoint.head? = some '>'
  · refine iff_of_false ?_ fun kept => kept.1 greater
    intro ⟨_, _, _, _, same⟩
    cases endpoint with
    | nil => cases greater
    | cons first rest =>
        cases greater
        rw [writeEndpoint, targetOf.bind] at same
        cases same
  · rw [FrameKept, and_iff_right greater, ← target_changed_iff inRange wellFormed targetOf,
      WrittenBack, writeEndpoint_eq targetOf.bind greater]
    constructor
    · intro ⟨resolved, after, host, port, same⟩
      cases List.append_cancel_left same
      exact ⟨resolved, host, port⟩
    · intro ⟨resolved, host, port⟩
      exact ⟨resolved, target.address, host, port, rfl⟩

end Write

theorem forall₂_iff_of_each {α β : Type} {relation other : α → β → Prop} {holds : α → Prop}
    {inputs : List α} {results : List β} (related : List.Forall₂ relation inputs results)
    (each : ∀ input ∈ inputs, ∀ result, relation input result →
      (other input result ↔ holds input)) :
    List.Forall₂ other inputs results ↔ ∀ input ∈ inputs, holds input := by
  induction related with
  | nil => simp
  | @cons input result inputs results first _ ih =>
      rw [List.forall₂_cons, List.forall_mem_cons, each input (by simp) result first,
        ih fun input member => each input (List.mem_cons_of_mem _ member)]

section Channel

variable {answers : Nat → Answer} {low high : Nat} {deviceTransport : Transport}
  {name : String} {index : Nat} {options recorded : ProgOptions} {channel after : Channel Socket}
  {attempt : Attempt}

theorem recordAddress_fVarMap {old new : String}
    (done : recordAddress name index old new options = some recorded) :
    recorded.fVarMap =
      if new = old then options.fVarMap
      else Function.update options.fVarMap (channelKey name index .address)
        (some (.string new)) := by
  have written : (Options.leftOptions ((Options.setValue (channelKey name index .address)
      (.string new)).run options)).fVarMap = _ := Options.setValue_fVarMap _
  simp only [recordAddress] at done
  split at done
  · rename_i same
    cases done
    rw [if_pos same]
  · rename_i changed
    rw [if_neg changed]
    split at done
    · rename_i ran
      cases done
      rw [ran] at written
      exact written
    · cases done

theorem attached_written_iff
    (inRange : ∀ i n, low ≤ (answers i).randomPort n ∧ (answers i).randomPort n ≤ high)
    (wellFormed : ∀ endpoint ∈ attachedEndpoints channel.fAddress,
      WellFormedAddress (withoutModifier endpoint))
    (done : attachChannel deviceTransport answers channel = some (after, attempt))
    (success : attempt.success = true) :
    List.Forall₂ (WrittenBack low high) (attachedEndpoints channel.fAddress) attempt.written ↔
      ∀ place ∈ (attachedEndpoints channel.fAddress).zipIdx,
        FrameKept (answers place.2) channel.fMethod place.1 := by
  obtain ⟨⟨socket, attempt⟩, went, same⟩ := Option.map_eq_some_iff.mp done
  cases same
  have written : List.Forall₂ (WrittenFor answers channel.fMethod)
      (attachedEndpoints channel.fAddress).zipIdx attempt.written :=
    attachEndpoints_written went success
  have places : (attachedEndpoints channel.fAddress).zipIdx.map Prod.fst =
      attachedEndpoints channel.fAddress := List.zipIdx_map_fst ..
  have each : ∀ place ∈ (attachedEndpoints channel.fAddress).zipIdx, ∀ result,
      WrittenFor answers channel.fMethod place result →
        (WrittenBack low high place.1 result ↔
          FrameKept (answers place.2) channel.fMethod place.1) := by
    intro place member result ⟨target, address, isResult, targetOf⟩
    have listed : place.1 ∈ attachedEndpoints channel.fAddress :=
      places ▸ List.mem_map_of_mem member
    rw [isResult]
    exact writtenBack_iff (inRange place.2) (wellFormed place.1 listed) targetOf
  rw [← forall₂_iff_of_each written each]
  nth_rewrite 1 [← places]
  exact List.forall₂_map_left_iff

/-- What binding leaves of an endpoint, and what attaching leaves of an address. -/
theorem binding_frame_iff
    (inRange : ∀ i n, low ≤ (answers i).randomPort n ∧ (answers i).randomPort n ≤ high) :
    (∀ i endpoint, OnlyPortChanged low high endpoint (boundEndpoint (answers i) 1000 0 endpoint).2 ↔
        PortAllowed (answers i) endpoint) ∧
      ∀ (deviceTransport : Transport) (name : String) (index : Nat) (options recorded : ProgOptions)
        (channel after : Channel Socket) (attempt : Attempt),
        (∀ endpoint ∈ attachedEndpoints channel.fAddress,
          WellFormedAddress (withoutModifier endpoint)) →
        attachConfigured deviceTransport answers name index options channel =
          some (recorded, after, attempt) → attempt.success = true →
        after.fAddress = String.ofList ([','].intercalate attempt.written) ∧
        recorded.fVarMap = (if after.fAddress = channel.fAddress then options.fVarMap
          else Function.update options.fVarMap (channelKey name index .address)
            (some (.string after.fAddress))) ∧
        (List.Forall₂ (WrittenBack low high) (attachedEndpoints channel.fAddress)
            attempt.written ↔
          ∀ place ∈ (attachedEndpoints channel.fAddress).zipIdx,
            FrameKept (answers place.2) channel.fMethod place.1) := by
  refine ⟨fun i endpoint => onlyPortChanged_iff (inRange i), ?_⟩
  intro deviceTransport name index options recorded channel after attempt wellFormed done success
  obtain ⟨⟨channel', attempt'⟩, attached, written⟩ := Option.bind_eq_some_iff.mp done
  have kept : attempt' = attempt ∧ channel' = after ∧
      recordAddress name index channel.fAddress after.fAddress options = some recorded := by
    dsimp only at written
    split at written
    · obtain ⟨_, isRecorded, same⟩ := Option.map_eq_some_iff.mp written
      cases same
      exact ⟨rfl, rfl, isRecorded⟩
    · rename_i failed
      cases written
      exact absurd success failed
  obtain ⟨rfl, rfl, isRecorded⟩ := kept
  exact ⟨(attachChannel_attempted attached).written success, recordAddress_fVarMap isRecorded,
    attached_written_iff inRange wellFormed attached success⟩

end Channel

def portTaken : Answer where
  bound numAttempts := 0 < numAttempts
  randomPort _ := 22000

theorem taken_port_replaced :
    ∃ recorded after attempt,
      attachConfigured .zmq (fun _ => portTaken) "data" 0 (.new fun _ => none)
          (.ofAddress "push" "bind" "tcp://*:5555") = some (recorded, after, attempt) ∧
        after.fAddress = "tcp://*:22000" ∧
        List.Forall₂ (WrittenBack 22000 32000) (attachedEndpoints "tcp://*:5555")
          attempt.written := by
  have single : attachedEndpoints "tcp://*:5555" = ["tcp://*:5555".toList] := by decide
  have inRange : ∀ i n, 22000 ≤ ((fun _ => portTaken : Nat → Answer) i).randomPort n ∧
      ((fun _ => portTaken : Nat → Answer) i).randomPort n ≤ 32000 :=
    fun _ _ => ⟨Nat.le_refl 22000, (by decide : 22000 ≤ 32000)⟩
  have wellFormed : ∀ endpoint ∈ attachedEndpoints "tcp://*:5555",
      WellFormedAddress (withoutModifier endpoint) := by
    rw [single]
    intro endpoint member
    cases List.mem_singleton.mp member
    exact ⟨"tcp://", by decide, "*:5555".toList, rfl, by decide, fun _ => by decide⟩
  have kept : ∀ place ∈ (attachedEndpoints "tcp://*:5555").zipIdx,
      FrameKept portTaken "bind" place.1 := by
    rw [single]
    intro place member
    cases List.mem_singleton.mp member
    exact ⟨by decide, fun _ => .inl rfl⟩
  have frame := (binding_frame_iff inRange).2 .zmq "data" 0 (.new fun _ => none) _
    (.ofAddress "push" "bind" "tcp://*:5555") _ _ wellFormed rfl rfl
  exact ⟨_, _, _, rfl, rfl, frame.2.2.mpr kept⟩

/-- An ipc address is cut at the colon of its scheme, and a modifier is exchanged. -/
theorem ipc_scheme_cut :
    boundEndpoint portTaken 1000 0 "ipc://x".toList = (true, "ipc:22000".toList) ∧
      ¬ OnlyPortChanged 22000 32000 "ipc://x".toList "ipc:22000".toList ∧
      ∃ after attempt,
        attachChannel .zmq (fun _ => {}) (.ofAddress "push" "connect" ">tcp://127.0.0.1:1") =
            some (after, attempt) ∧
          after.fAddress = "+tcp://127.0.0.1:1" := by
  refine ⟨by decide, ?_, _, _, rfl, rfl⟩
  intro changed
  rcases changed with same | ⟨tcp, _⟩
  · exact absurd same (by decide)
  · cases tcp

end FairMQ.Device
