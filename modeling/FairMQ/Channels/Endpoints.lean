import FairMQ.Channels.Validation
import Mathlib.Data.List.Basic

namespace FairMQ.Channels

open Validation

def attachedEndpoints (address : String) : List (List Char) :=
  address.toList.splitOn ','

def schemes : List String := ["tcp://", "ipc://", "inproc://", "verbs://"]

def WellFormedAddress (address : List Char) : Prop :=
  ∃ scheme ∈ schemes, ∃ rest, address = scheme.toList ++ rest ∧ rest ≠ [] ∧
    (scheme = "tcp://" → ':' ∈ rest)

def isModified (endpoint : List Char) : Bool :=
  endpoint.head?.any isModifier

def withoutModifier (endpoint : List Char) : List Char :=
  if isModified endpoint then endpoint.tail else endpoint

structure WellFormed (method : String) (endpoint : List Char) : Prop where
  address : WellFormedAddress (withoutModifier endpoint)
  method : isModified endpoint = false → method ∈ socketMethods

def Validates (type method address : String) : Prop :=
  (validateChannel (Channel.ofAddress type method address : Channel Unit).toFairMQChannel).1 =
    .valid

instance (type method address : String) : Decidable (Validates type method address) :=
  inferInstanceAs (Decidable (_ = _))

def ShortVerbs (address : List Char) : Prop :=
  ∃ character, address = "verbs://".toList ++ [character]

section Address

variable (rest : List Char)

theorem validateAddress_tcp :
    validateAddress ("tcp://".toList ++ rest) = .valid ↔ ':' ∈ rest := by
  change (if ':' ∈ rest then Validation.valid else invalidAddress _ _) = .valid ↔ _
  split <;> simp_all [invalidAddress]

theorem validateAddress_ipc :
    validateAddress ("ipc://".toList ++ rest) = .valid ↔ rest ≠ [] := by
  change (if rest = [] then invalidAddress _ _ else Validation.valid) = .valid ↔ _
  split <;> simp_all [invalidAddress]

theorem validateAddress_inproc :
    validateAddress ("inproc://".toList ++ rest) = .valid ↔ rest ≠ [] := by
  change (if rest = [] then invalidAddress _ _ else Validation.valid) = .valid ↔ _
  split <;> simp_all [invalidAddress]

theorem validateAddress_verbs :
    validateAddress ("verbs://".toList ++ rest) = .valid ↔ 2 ≤ rest.length := by
  match rest with
  | [] => exact iff_of_false Validation.noConfusion (by simp)
  | [character] => exact iff_of_false Validation.noConfusion (by simp)
  | first :: second :: others => exact iff_of_true rfl (by simp)

theorem exists_scheme_of_valid {address : List Char} (valid : validateAddress address = .valid) :
    ∃ scheme ∈ schemes, ∃ rest, address = scheme.toList ++ rest := by
  have found {scheme : String} (member : scheme ∈ schemes)
      (starts : hasScheme scheme address = true) :
      ∃ scheme ∈ schemes, ∃ rest, address = scheme.toList ++ rest := by
    obtain ⟨rest, split⟩ := List.isPrefixOf_iff_prefix.mp starts
    exact ⟨scheme, member, rest, split.symm⟩
  simp only [validateAddress] at valid
  split at valid
  · rename_i starts
    exact found (by decide) starts
  · split at valid
    · rename_i starts
      exact found (by decide) starts
    · split at valid
      · rename_i starts
        exact found (by decide) starts
      · split at valid
        · rename_i starts
          exact found (by decide) starts
        · cases valid

end Address

theorem mem_schemes {scheme : String} (member : scheme ∈ schemes) :
    scheme = "tcp://" ∨ scheme = "ipc://" ∨ scheme = "inproc://" ∨ scheme = "verbs://" := by
  simpa only [schemes, List.mem_cons, List.not_mem_nil, or_false] using member

theorem validateAddress_iff (address : List Char) :
    validateAddress address = .valid ↔
      WellFormedAddress address ∧ ¬ ShortVerbs address := by
  constructor
  · intro valid
    obtain ⟨scheme, member, rest, rfl⟩ := exists_scheme_of_valid valid
    refine ⟨⟨scheme, member, rest, rfl, ?_, ?_⟩, ?_⟩
    · rintro rfl
      rcases mem_schemes member with rfl | rfl | rfl | rfl <;> cases valid
    · rintro rfl
      exact (validateAddress_tcp rest).mp valid
    · rintro ⟨character, same⟩
      rw [same] at valid
      cases valid
  · rintro ⟨⟨scheme, member, rest, rfl, nonempty, port⟩, long⟩
    rcases mem_schemes member with rfl | rfl | rfl | rfl
    · exact (validateAddress_tcp rest).mpr (port rfl)
    · exact (validateAddress_ipc rest).mpr nonempty
    · exact (validateAddress_inproc rest).mpr nonempty
    · refine (validateAddress_verbs rest).mpr ?_
      match rest with
      | [] => contradiction
      | [character] => exact absurd ⟨character, rfl⟩ long
      | first :: second :: others => simp

theorem validateEndpoint_iff (method : String) (endpoint : List Char) :
    validateEndpoint method endpoint = .valid ↔
      WellFormed method endpoint ∧ ¬ ShortVerbs (withoutModifier endpoint) := by
  have unmodified (plain : isModified endpoint = false) :
      validateEndpoint.unmodified method endpoint = .valid ↔
        WellFormed method endpoint ∧ ¬ ShortVerbs (withoutModifier endpoint) := by
    have whole : withoutModifier endpoint = endpoint := by simp [withoutModifier, plain]
    simp only [validateEndpoint.unmodified, andThen_eq_valid, require_eq_valid,
      validateAddress_iff]
    constructor
    · rintro ⟨known, wellFormed, long⟩
      exact ⟨⟨by rwa [whole], fun _ => known⟩, by rwa [whole]⟩
    · rintro ⟨wellFormed, long⟩
      rw [whole] at long
      exact ⟨wellFormed.method plain, whole ▸ wellFormed.address, long⟩
  cases endpoint with
  | nil => exact unmodified rfl
  | cons first rest =>
      simp only [validateEndpoint]
      cases modified : isModifier first with
      | false => exact unmodified modified
      | true =>
          have isRest : withoutModifier (first :: rest) = rest := if_pos modified
          rw [if_pos rfl, validateAddress_iff, isRest]
          refine and_congr_left fun _ => ⟨fun wellFormed => ⟨?_, ?_⟩, fun wellFormed => ?_⟩
          · rwa [isRest]
          · intro plain
            cases modified.symm.trans plain
          · exact isRest ▸ wellFormed.address

theorem WellFormedAddress.append {address : List Char} (wellFormed : WellFormedAddress address)
    (more : List Char) : WellFormedAddress (address ++ more) := by
  obtain ⟨scheme, member, rest, rfl, nonempty, port⟩ := wellFormed
  refine ⟨scheme, member, rest ++ more, List.append_assoc _ _ _, ?_, ?_⟩
  · exact List.append_ne_nil_of_left_ne_nil nonempty more
  · exact fun tcp => List.mem_append_left more (port tcp)

theorem WellFormedAddress.nonempty {address : List Char}
    (wellFormed : WellFormedAddress address) : address ≠ [] := by
  obtain ⟨scheme, _, rest, rfl, nonempty, _⟩ := wellFormed
  exact List.append_ne_nil_of_right_ne_nil _ nonempty

theorem withoutModifier_append {endpoint : List Char} (nonempty : endpoint ≠ [])
    (more : List Char) :
    isModified (endpoint ++ more) = isModified endpoint ∧
      withoutModifier (endpoint ++ more) = withoutModifier endpoint ++ more := by
  cases endpoint with
  | nil => contradiction
  | cons first rest =>
      refine ⟨rfl, ?_⟩
      cases modified : isModifier first <;> simp [withoutModifier, isModified, modified]

theorem WellFormed.nonempty {method : String} {endpoint : List Char}
    (wellFormed : WellFormed method endpoint) : endpoint ≠ [] := by
  rintro rfl
  exact wellFormed.address.nonempty rfl

theorem WellFormed.append {method : String} {endpoint : List Char}
    (wellFormed : WellFormed method endpoint) (more : List Char) :
    WellFormed method (endpoint ++ more) := by
  obtain ⟨modified, address⟩ := withoutModifier_append wellFormed.nonempty more
  refine ⟨?_, ?_⟩
  · rw [address]
    exact wellFormed.address.append more
  · rw [modified]
    exact wellFormed.method

theorem splitOn_head (separator : Char) (text : List Char) :
    ∃ first pieces more, text.splitOn separator = first :: pieces ∧ text = first ++ more := by
  by_cases member : separator ∈ text
  · obtain ⟨first, back, rfl, absent⟩ := List.eq_append_cons_of_mem member
    exact ⟨first, back.splitOn separator, separator :: back,
      List.splitOn_append_cons_self_of_not_mem absent back, rfl⟩
  · exact ⟨text, [], [], List.splitOn_eq_singleton member, (List.append_nil text).symm⟩

theorem validateEndpoints_iff (method : String) (endpoints : List (List Char)) :
    validateEndpoints method endpoints = .valid ↔
      ∀ endpoint ∈ endpoints, validateEndpoint method endpoint = .valid := by
  induction endpoints with
  | nil => simp [validateEndpoints]
  | cons endpoint endpoints ih => simp [validateEndpoints, ih]

theorem validateAddresses_iff (method address : String) :
    validateAddresses method address = .valid ↔
      address ≠ "unspecified" ∧ address ≠ "" ∧
        ∀ endpoint ∈ address.toList.splitOn ';', validateEndpoint method endpoint = .valid := by
  rw [← validateEndpoints_iff]
  unfold validateAddresses
  split
  · rename_i missing
    rcases missing with rfl | rfl <;> simp
  · rename_i given
    simp [not_or.mp given]

theorem validates_iff (type method address : String) :
    Validates type method address ↔
      type ∈ socketTypes ∧ validateAddresses method address = .valid := by
  have checked : Validates type method address ↔
      fullValidation (Channel.ofAddress type method address : Channel Unit).toFairMQChannel =
        .valid := by
    simp only [Validates, validateChannel, Channel.ofAddress, Bool.false_eq_true, if_false]
    split <;> simp_all
  rw [checked, fullValidation_iff]
  exact and_congr_right fun _ => and_iff_left (by simp [Channel.ofAddress])

theorem WellFormed.not_shortVerbs {method : String} {endpoint more : List Char}
    (wellFormed : WellFormed method endpoint) (nonempty : more ≠ []) :
    ¬ ShortVerbs (withoutModifier (endpoint ++ more)) := by
  rw [(withoutModifier_append wellFormed.nonempty more).2]
  rintro ⟨character, short⟩
  obtain ⟨scheme, member, rest, split, some, _⟩ := wellFormed.address
  rw [split, List.append_assoc] at short
  rcases mem_schemes member with rfl | rfl | rfl | rfl
  · cases short
  · cases short
  · cases short
  · rcases List.append_eq_singleton_iff.mp (List.append_cancel_left short) with
      ⟨empty, _⟩ | ⟨_, empty⟩
    · exact some empty
    · exact nonempty empty

theorem validateEndpoint_append {method : String} {endpoint : List Char}
    (passes : validateEndpoint method endpoint = .valid) (more : List Char) :
    validateEndpoint method (endpoint ++ more) = .valid := by
  obtain ⟨wellFormed, long⟩ := (validateEndpoint_iff method endpoint).mp passes
  refine (validateEndpoint_iff method _).mpr ⟨wellFormed.append more, ?_⟩
  by_cases nothing : more = []
  · rwa [nothing, List.append_nil]
  · exact wellFormed.not_shortVerbs nothing

theorem not_wellFormed_unspecified (method : String) :
    ¬ WellFormed method "unspecified".toList := by
  rintro ⟨⟨scheme, member, rest, split, _⟩, _⟩
  rcases mem_schemes member with rfl | rfl | rfl | rfl <;> cases split

def opening (address : String) : List Char :=
  address.toList.takeWhile fun character => character != ',' && character != ';'

def separator (address : String) : Option Char :=
  (address.toList.dropWhile fun character => character != ',' && character != ';').head?

/-- The opening is an endpoint for both functions; behind a comma `ValidateChannel` reads on, so
that a short verbs address passes there. -/
structure Opens (method address : String) : Prop where
  wellFormed : WellFormed method (opening address)
  long : ShortVerbs (withoutModifier (opening address)) → separator address = some ','

def Attachable (method address : String) : Prop :=
  ∀ endpoint ∈ attachedEndpoints address, WellFormed method endpoint

structure Agrees (type method address : String) : Prop where
  covered : Validates type method address → Attachable method address
  accepted : type ∈ socketTypes → Attachable method address → Validates type method address

section Pieces

variable {type method address : String}

theorem splitOn_append {separator : Char} {front : List Char} (free : separator ∉ front)
    (text : List Char) :
    ∃ first pieces more, text.splitOn separator = first :: pieces ∧ text = first ++ more ∧
      (front ++ text).splitOn separator = (front ++ first) :: pieces := by
  by_cases member : separator ∈ text
  · obtain ⟨first, back, rfl, absent⟩ := List.eq_append_cons_of_mem member
    refine ⟨first, back.splitOn separator, separator :: back,
      List.splitOn_append_cons_self_of_not_mem absent back, rfl, ?_⟩
    rw [← List.append_assoc]
    exact List.splitOn_append_cons_self_of_not_mem (by simp [free, absent]) back
  · exact ⟨text, [], [], List.splitOn_eq_singleton member, (List.append_nil text).symm,
      List.splitOn_eq_singleton (by simp [free, member])⟩

theorem opening_cases (address : String) :
    (',' ∉ opening address ∧ ';' ∉ opening address) ∧
      ((address.toList = opening address ∧ separator address = none) ∨
        ∃ character back, (character = ',' ∨ character = ';') ∧
          address.toList = opening address ++ character :: back ∧
          separator address = some character) := by
  have free : ∀ character ∈ opening address, character ≠ ',' ∧ character ≠ ';' := by
    intro character member
    simpa using List.mem_takeWhile_imp member
  refine ⟨⟨fun member => (free _ member).1 rfl, fun member => (free _ member).2 rfl⟩, ?_⟩
  have whole : opening address ++ _ = address.toList := List.takeWhile_append_dropWhile
  cases rest : address.toList.dropWhile fun character => character != ',' && character != ';' with
  | nil =>
      rw [rest, List.append_nil] at whole
      exact .inl ⟨whole.symm, by rw [separator, rest]; rfl⟩
  | cons character back =>
      rw [rest] at whole
      have some : (address.toList.dropWhile
          fun character => character != ',' && character != ';') ≠ [] := by simp [rest]
      have stops := List.head_dropWhile_not _ some
      simp only [rest, List.head_cons] at stops
      have kind : character = ',' ∨ character = ';' := by
        by_cases comma : character = ','
        · exact .inl comma
        · simpa [comma] using stops
      exact .inr ⟨character, back, kind, whole.symm, by rw [separator, rest]; rfl⟩

theorem validates_iff_pieces (known : type ∈ socketTypes) :
    Validates type method address ↔
      ∀ piece ∈ address.toList.splitOn ';', validateEndpoint method piece = .valid := by
  rw [validates_iff, validateAddresses_iff]
  constructor
  · exact fun checked => checked.2.2.2
  · intro pieces
    obtain ⟨first, others, more, split, whole⟩ := splitOn_head ';' address.toList
    have passes := pieces first (split ▸ List.mem_cons_self)
    have wellFormed : WellFormed method address.toList :=
      whole ▸ ((validateEndpoint_iff method first).mp passes).1.append more
    refine ⟨known, ?_, ?_, pieces⟩
    · rintro rfl
      exact not_wellFormed_unspecified method wellFormed
    · rintro rfl
      exact wellFormed.nonempty rfl

theorem first_pieces (address : String) :
    ∃ checked later attached others, address.toList.splitOn ';' = checked :: later ∧
      attachedEndpoints address = attached :: others ∧
      ((checked = opening address ∧ separator address ≠ some ',' ∧
          ∃ more, attached = opening address ++ more) ∨
        (attached = opening address ∧ separator address = some ',' ∧
          ∃ more, more ≠ [] ∧ checked = opening address ++ more)) := by
  obtain ⟨⟨noComma, noSemicolon⟩, ending | ⟨character, back, kind, whole, isSeparator⟩⟩ :=
    opening_cases address
  · obtain ⟨whole, isSeparator⟩ := ending
    rw [attachedEndpoints, whole]
    exact ⟨_, _, _, _, List.splitOn_eq_singleton noSemicolon, List.splitOn_eq_singleton noComma,
      .inl ⟨rfl, by simp [isSeparator], [], by simp⟩⟩
  · rw [attachedEndpoints, whole]
    rcases kind with rfl | rfl
    · obtain ⟨first, pieces, _, _, _, split⟩ := @splitOn_append ';' (opening address ++ [','])
        (by simp [noSemicolon]) back
      rw [List.append_assoc, List.append_assoc] at split
      exact ⟨_, _, _, _, split, List.splitOn_append_cons_self_of_not_mem noComma back,
        .inr ⟨rfl, isSeparator, ',' :: first, List.cons_ne_nil _ _, rfl⟩⟩
    · obtain ⟨first, pieces, _, _, _, split⟩ := @splitOn_append ',' (opening address ++ [';'])
        (by simp [noComma]) back
      rw [List.append_assoc, List.append_assoc] at split
      exact ⟨_, _, _, _, List.splitOn_append_cons_self_of_not_mem noSemicolon back, split,
        .inl ⟨rfl, by simp [isSeparator], ';' :: first, rfl⟩⟩

theorem opens_iff {checked attached : List Char}
    (pieces : (checked = opening address ∧ separator address ≠ some ',' ∧
        ∃ more, attached = opening address ++ more) ∨
      (attached = opening address ∧ separator address = some ',' ∧
        ∃ more, more ≠ [] ∧ checked = opening address ++ more)) :
    Opens method address ↔
      validateEndpoint method checked = .valid ∧ WellFormed method attached := by
  rw [validateEndpoint_iff]
  rcases pieces with ⟨rfl, elsewhere, more, rfl⟩ | ⟨rfl, comma, more, nonempty, rfl⟩
  · constructor
    · intro opens
      exact ⟨⟨opens.wellFormed, fun short => elsewhere (opens.long short)⟩,
        opens.wellFormed.append more⟩
    · rintro ⟨⟨wellFormed, long⟩, _⟩
      exact ⟨wellFormed, fun short => absurd short long⟩
  · constructor
    · intro opens
      exact ⟨⟨opens.wellFormed.append more, opens.wellFormed.not_shortVerbs nonempty⟩,
        opens.wellFormed⟩
    · rintro ⟨_, wellFormed⟩
      exact ⟨wellFormed, fun _ => comma⟩

theorem conjunctions_agree_iff {first later attached others : Prop} :
    (first ∧ later ↔ attached ∧ others) ↔
      (first ∧ attached → (later ↔ others)) ∧
        (¬ (first ∧ attached) → ¬ (first ∧ later) ∧ ¬ (attached ∧ others)) := by
  tauto

inductive Listed (method : String) : List Char → Prop where
  | one {endpoint : List Char} (passes : validateEndpoint method endpoint = .valid)
      (free : ',' ∉ endpoint ∧ ';' ∉ endpoint) : Listed method endpoint
  | comma {endpoint others : List Char} (passes : validateEndpoint method endpoint = .valid)
      (free : ',' ∉ endpoint ∧ ';' ∉ endpoint) (listed : Listed method others) :
      Listed method (endpoint ++ ',' :: others)
  | semicolon {endpoint others : List Char} (passes : validateEndpoint method endpoint = .valid)
      (free : ',' ∉ endpoint ∧ ';' ∉ endpoint) (listed : Listed method others) :
      Listed method (endpoint ++ ';' :: others)

theorem Listed.pieces {text : List Char} (listed : Listed method text) (separator : Char)
    (isSeparator : separator = ',' ∨ separator = ';') :
    ∀ piece ∈ text.splitOn separator, validateEndpoint method piece = .valid := by
  -- the endpoint in front is a piece of its own, or goes with the first piece of the others
  have front {endpoint others : List Char} {character : Char}
      (passes : validateEndpoint method endpoint = .valid)
      (free : ',' ∉ endpoint ∧ ';' ∉ endpoint)
      (rest : ∀ piece ∈ others.splitOn separator, validateEndpoint method piece = .valid) :
      ∀ piece ∈ (endpoint ++ character :: others).splitOn separator,
        validateEndpoint method piece = .valid := by
    have absent : separator ∉ endpoint := by
      rcases isSeparator with rfl | rfl
      · exact free.1
      · exact free.2
    by_cases same : character = separator
    · subst same
      rw [List.splitOn_append_cons_self_of_not_mem absent]
      exact List.forall_mem_cons.mpr ⟨passes, rest⟩
    · obtain ⟨first, pieces, more, split, _, whole⟩ := @splitOn_append separator
        (endpoint ++ [character]) (by simp [absent, Ne.symm same]) others
      rw [List.append_assoc, List.append_assoc] at whole
      rw [split] at rest
      rw [List.singleton_append] at whole
      rw [whole]
      exact List.forall_mem_cons.mpr
        ⟨validateEndpoint_append passes _, (List.forall_mem_cons.mp rest).2⟩
  induction listed with
  | one passes free =>
      rw [List.splitOn_eq_singleton (by rcases isSeparator with rfl | rfl <;> simp [free])]
      exact List.forall_mem_singleton.mpr passes
  | comma passes free _ rest => exact front passes free rest
  | semicolon passes free _ rest => exact front passes free rest

end Pieces

theorem not_wellFormedAddress_of_unknown {address : List Char}
    (unknown : ∀ scheme ∈ schemes, hasScheme scheme address = false) :
    ¬ WellFormedAddress address := by
  rintro ⟨scheme, member, rest, rfl, _⟩
  have starts : hasScheme scheme (scheme.toList ++ rest) = true :=
    List.isPrefixOf_iff_prefix.mpr (List.prefix_append _ _)
  rw [unknown scheme member] at starts
  cases starts

end FairMQ.Channels
