import BeanWiring.Container.Fetching
import BeanWiring.Proofs.Placeholder
import BeanWiring.Proofs.Work
import Mathlib.Data.String.Basic

/-!
The scan that puts properties into a text, on byte offsets. A mark is looked for among the bytes and the
text is sliced at the offsets found, where a slice that would leave the text or begin or end inside a
character is none. All marks are single bytes, and no byte of a longer character is one of them, so each
offset is where a character begins.
-/
namespace BeanWiring.Placeholder

def bytes (text : String) : List UInt8 := text.toByteArray.data.toList

def find (mark text : String) : Option Nat := (bytes text).tails.findIdx? (bytes mark).isPrefixOf

/-- The text between two offsets, if they are in order and each is where a character begins or the text
ends. -/
def slice? (text : String) (first last : Nat) : Option String :=
  if first ≤ last ∧ String.Pos.Raw.isValid text ⟨first⟩ ∧ String.Pos.Raw.isValid text ⟨last⟩ then
    some (String.Pos.Raw.extract text ⟨first⟩ ⟨last⟩)
  else none

def readContent (content : String) : Option (String × Option String) :=
  match find ":" content with
  | none => some (content, none)
  | some colon => do
    let key ← slice? content 0 colon
    let value ← slice? content (colon + 1) content.utf8ByteSize
    some (key, some value)

inductive Turn
  | ends (outcome : Except String String)
  | goesOn (result rest : String)

/-- One turn of the scan, unless it slices where there is nothing to slice. -/
def turn (properties : Registry String String) (result rest : String) : Option Turn :=
  match find "$\x7b" rest with
  | none => some (.ends (.ok (result ++ rest)))
  | some start => do
    let opened ← slice? rest (start + 2) rest.utf8ByteSize
    match find "\x7d" opened with
    | none => some (.ends (.ok (result ++ rest)))
    | some length => do
      let before ← slice? rest 0 start
      let content ← slice? rest (start + 2) (start + 2 + length)
      let (key, default?) ← readContent content
      match (properties.get? key).or default? with
      | none => some (.ends (.error key))
      | some value => do
        let later ← slice? rest (start + 2 + length + 1) rest.utf8ByteSize
        some (.goesOn (result ++ before ++ value) later)

variable {mark text before after opened content key : List Char} {default? : Option (List Char)}
  {parts : List Piece} {properties : Registry String String} {result rest : String}

section find

theorem bytes_ofList (text : List Char) :
    bytes (String.ofList text) = text.flatMap String.utf8EncodeChar := by
  rw [bytes, String.toByteArray_ofList, List.utf8Encode, List.data_toByteArray]

theorem high_of_mem_utf8EncodeChar {c : Char} {byte : UInt8} (wide : c.utf8Size ≠ 1)
    (member : byte ∈ String.utf8EncodeChar c) : 128 ≤ byte.toNat := by
  have big : ¬ c.val.toNat ≤ 127 := by
    intro small
    exact wide (Char.utf8Size_eq_one_iff.mpr (UInt32.le_iff_toNat_le.mpr small))
  unfold String.utf8EncodeChar at member
  simp only [if_neg big] at member
  split at member
  · simp only [List.mem_cons, List.not_mem_nil, or_false] at member
    rcases member with rfl | rfl <;> simp <;> omega
  · split at member
    · simp only [List.mem_cons, List.not_mem_nil, or_false] at member
      rcases member with rfl | rfl | rfl <;> simp <;> omega
    · simp only [List.mem_cons, List.not_mem_nil, or_false] at member
      rcases member with rfl | rfl | rfl | rfl <;> simp <;> omega

theorem low_of_single {c : Char} (single : c.utf8Size = 1) : c.val.toUInt8.toNat = c.val.toNat ∧
    c.val.toNat < 128 := by
  have small := UInt32.le_iff_toNat_le.mp (Char.utf8Size_eq_one_iff.mp single)
  have bound : c.val.toNat ≤ 127 := small
  constructor
  · rw [UInt32.toNat_toUInt8]
    omega
  · omega

/-- Where a mark of single bytes stands among the bytes of a text, it stands in the text. -/
theorem prefix_utf8_iff (single : ∀ c ∈ mark, c.utf8Size = 1) :
    mark.flatMap String.utf8EncodeChar <+: text.flatMap String.utf8EncodeChar ↔ mark <+: text := by
  induction mark generalizing text with
  | nil => simp
  | cons m marks ih =>
    obtain ⟨narrow, others⟩ := List.forall_mem_cons.mp single
    rw [List.flatMap_cons, String.utf8EncodeChar_eq_singleton narrow, List.singleton_append]
    cases text with
    | nil => simp
    | cons c rest =>
      rw [List.flatMap_cons, List.cons_prefix_cons]
      by_cases wide : c.utf8Size = 1
      · rw [String.utf8EncodeChar_eq_singleton wide, List.singleton_append, List.cons_prefix_cons, ih others]
        apply and_congr_left'
        constructor
        · intro same
          have values := congrArg UInt8.toNat same
          rw [(low_of_single narrow).1, (low_of_single wide).1] at values
          exact Char.ext (UInt32.toNat_inj.mp values)
        · rintro rfl
          rfl
      -- A character of several bytes has none below 128, and a mark has none from there up.
      · obtain ⟨byte, more, encoded⟩ := List.exists_cons_of_ne_nil (String.utf8EncodeChar_ne_nil (c := c))
        have high := high_of_mem_utf8EncodeChar wide (encoded ▸ List.mem_cons_self)
        have low := low_of_single narrow
        rw [encoded, List.cons_append, List.cons_prefix_cons]
        constructor
        · rintro ⟨rfl, -⟩
          omega
        · rintro ⟨rfl, -⟩
          exact absurd narrow wide

theorem findIdx?_tails_append {first : UInt8} {marks run : List UInt8} (other : first ∉ run)
    (rest : List UInt8) :
    (run ++ rest).tails.findIdx? (first :: marks).isPrefixOf =
      (rest.tails.findIdx? (first :: marks).isPrefixOf).map (· + run.length) := by
  induction run with
  | nil => simp
  | cons byte run ih =>
    obtain ⟨different, later⟩ := List.ne_and_not_mem_of_not_mem_cons other
    have absent : ¬ (first :: marks).isPrefixOf (byte :: (run ++ rest)) := by
      rw [List.isPrefixOf_iff_prefix, List.cons_prefix_cons]
      exact fun here => different here.1
    rw [List.cons_append, List.tails_cons, List.findIdx?_cons, if_neg absent, ih later, Option.map_map]
    rfl

structure Narrow (mark : List Char) : Prop where
  nonempty : mark ≠ []
  single : ∀ c ∈ mark, c.utf8Size = 1

theorem narrow_opening : Narrow ['$', '\x7b'] :=
  ⟨List.cons_ne_nil _ _, List.forall_mem_cons.mpr ⟨by decide, List.forall_mem_singleton.mpr (by decide)⟩⟩

theorem narrow_closing : Narrow ['\x7d'] :=
  ⟨List.cons_ne_nil _ _, List.forall_mem_singleton.mpr (by decide)⟩

theorem narrow_colon : Narrow [':'] :=
  ⟨List.cons_ne_nil _ _, List.forall_mem_singleton.mpr (by decide)⟩

theorem find_cons {c : Char} (narrow : Narrow mark) :
    find (String.ofList mark) (String.ofList (c :: text)) =
      if mark.isPrefixOf (c :: text) then some 0
      else (find (String.ofList mark) (String.ofList text)).map (· + c.utf8Size) := by
  obtain ⟨m, marks, rfl⟩ := List.exists_cons_of_ne_nil narrow.nonempty
  obtain ⟨byte, more, encoded⟩ := List.exists_cons_of_ne_nil (String.utf8EncodeChar_ne_nil (c := c))
  have single := narrow.single m List.mem_cons_self
  have low := low_of_single single
  have whole : (c :: text).flatMap String.utf8EncodeChar =
      byte :: (more ++ text.flatMap String.utf8EncodeChar) := by
    rw [List.flatMap_cons, encoded, List.cons_append]
  have here : ((m :: marks).flatMap String.utf8EncodeChar).isPrefixOf
      (byte :: (more ++ text.flatMap String.utf8EncodeChar)) =
        (m :: marks).isPrefixOf (c :: text) := by
    rw [Bool.eq_iff_iff, List.isPrefixOf_iff_prefix, List.isPrefixOf_iff_prefix,
      ← prefix_utf8_iff narrow.single, whole]
  -- No mark begins within a character, so what comes after its first byte is passed over.
  have other : m.val.toUInt8 ∉ more := by
    intro member
    have wide : c.utf8Size ≠ 1 := by
      intro one
      rw [String.utf8EncodeChar_eq_singleton one] at encoded
      obtain ⟨-, rfl⟩ := List.cons.inj encoded
      cases member
    have high := high_of_mem_utf8EncodeChar wide (encoded ▸ List.mem_cons_of_mem byte member)
    omega
  have size : more.length + 1 = c.utf8Size := by
    rw [← String.length_utf8EncodeChar, encoded, List.length_cons]
  simp only [find, bytes_ofList]
  rw [whole, List.tails_cons, List.findIdx?_cons, here]
  rw [List.flatMap_cons, String.utf8EncodeChar_eq_singleton single, List.singleton_append,
    findIdx?_tails_append other, Option.map_map]
  congr 2
  funext place
  simp only [Function.comp]
  omega

theorem find_eq (narrow : Narrow mark) (text : List Char) :
    find (String.ofList mark) (String.ofList text) =
      (splitOnce mark text).map fun found => String.utf8Len found.1 := by
  induction text with
  | nil =>
    obtain ⟨m, marks, rfl⟩ := List.exists_cons_of_ne_nil narrow.nonempty
    simp only [find, bytes_ofList]
    rw [List.flatMap_cons, String.utf8EncodeChar_eq_singleton (narrow.single m List.mem_cons_self)]
    rfl
  | cons c rest ih =>
    rw [find_cons narrow, splitOnce, ih]
    split
    · rfl
    · rw [Option.map_map, Option.map_map]
      rfl

theorem find_of_first (narrow : Narrow mark) (first : First mark text before after) :
    find (String.ofList mark) (String.ofList text) = some (String.utf8Len before) := by
  rw [find_eq narrow, first.splitOnce narrow.nonempty]
  rfl

theorem find_of_notInfix (narrow : Narrow mark) (absent : ¬ mark <:+: text) :
    find (String.ofList mark) (String.ofList text) = none := by
  rw [find_eq narrow, splitOnce_eq_none absent]
  rfl

end find

section slice

theorem slice?_append (before middle after : List Char) :
    slice? (String.ofList (before ++ (middle ++ after))) (String.utf8Len before)
      (String.utf8Len before + String.utf8Len middle) = some (String.ofList middle) := by
  have starts : String.Pos.Raw.isValid (String.ofList (before ++ (middle ++ after)))
      ⟨String.utf8Len before⟩ := by
    rw [String.Pos.Raw.isValid_eq_true_iff, String.Pos.Raw.isValid_iff_exists_append]
    exact ⟨String.ofList before, String.ofList (middle ++ after), by rw [← String.ofList_append],
      by rw [String.rawEndPos_ofList]⟩
  have ends : String.Pos.Raw.isValid (String.ofList (before ++ (middle ++ after)))
      ⟨String.utf8Len before + String.utf8Len middle⟩ := by
    rw [String.Pos.Raw.isValid_eq_true_iff, String.Pos.Raw.isValid_iff_exists_append]
    exact ⟨String.ofList (before ++ middle), String.ofList after,
      by rw [← String.ofList_append, List.append_assoc],
      by rw [String.rawEndPos_ofList, String.utf8Len_append]⟩
  rw [slice?, if_pos ⟨Nat.le_add_right _ _, starts, ends⟩, ← List.append_assoc, String.extract_of_valid]

theorem slice?_rest (before after : List Char) :
    slice? (String.ofList (before ++ after)) (String.utf8Len before)
      (String.ofList (before ++ after)).utf8ByteSize = some (String.ofList after) := by
  have slice := slice?_append before after []
  rwa [List.append_nil, ← String.utf8Len_append, ← String.utf8ByteSize_ofList (before ++ after)] at slice

theorem First.slice?_before (first : First mark text before after) :
    slice? (String.ofList text) 0 (String.utf8Len before) = some (String.ofList before) := by
  rw [← first.split]
  simpa using slice?_append [] before (mark ++ after)

theorem First.slice?_after (first : First mark text before after) :
    slice? (String.ofList text) (String.utf8Len before + String.utf8Len mark)
      (String.ofList text).utf8ByteSize = some (String.ofList after) := by
  have slice := slice?_rest (before ++ mark) after
  rwa [String.utf8Len_append, List.append_assoc, first.split] at slice

theorem First.shrinks (nonempty : mark ≠ []) (first : First mark text before after) :
    String.utf8Len after < String.utf8Len text := by
  have size : String.utf8Len mark ≠ 0 := by rwa [ne_eq, String.utf8Len_eq_zero]
  rw [← first.split, String.utf8Len_append, String.utf8Len_append]
  omega

end slice

section turn

theorem readContent_of_holds (holds : Holds content (.placeholder key default?)) :
    readContent (String.ofList content) = some (String.ofList key, default?.map String.ofList) := by
  cases holds with
  | bare plain =>
    have colon : find ":" (String.ofList content) = none :=
      find_of_notInfix narrow_colon (mt (List.singleton_infix_iff ':' content).mp plain)
    rw [readContent, colon]
    rfl
  | @default _ value first =>
    have colon : find ":" (String.ofList content) = some (String.utf8Len key) :=
      find_of_first narrow_colon first
    have later : slice? (String.ofList content) (String.utf8Len key + 1)
        (String.ofList content).utf8ByteSize = some (String.ofList value) := first.slice?_after
    simp only [readContent, colon, first.slice?_before, later, Option.bind_eq_bind, Option.bind_some,
      Option.map_some]

theorem turn_of_unclosed (unclosed : ¬ HasClosed text) (result : String) :
    turn properties result (String.ofList text) = some (.ends (.ok (result ++ String.ofList text))) := by
  cases opening : splitOnce ['$', '\x7b'] text with
  | none =>
    have start : find "$\x7b" (String.ofList text) = none :=
      find_of_notInfix narrow_opening (notInfix_of_splitOnce (List.cons_ne_nil _ _) opening)
    simp only [turn, start]
  | some found =>
    obtain ⟨before, opened⟩ := found
    have first := first_of_splitOnce opening
    have start : find "$\x7b" (String.ofList text) = some (String.utf8Len before) :=
      find_of_first narrow_opening first
    have later : slice? (String.ofList text) (String.utf8Len before + 2)
        (String.ofList text).utf8ByteSize = some (String.ofList opened) := first.slice?_after
    have length : find "\x7d" (String.ofList opened) = none :=
      find_of_notInfix narrow_closing
        (mt (List.singleton_infix_iff '\x7d' opened).mp (mt (hasClosed_iff first).mpr unclosed))
    simp only [turn, start, later, length, Option.bind_eq_bind, Option.bind_some]

theorem turn_of_closed (opening : First ['$', '\x7b'] text before opened)
    (closing : First ['\x7d'] opened content after) (holds : Holds content (.placeholder key default?))
    (result : String) :
    turn properties result (String.ofList text) =
      match (properties.get? (String.ofList key)).or (default?.map String.ofList) with
      | none => some (.ends (.error (String.ofList key)))
      | some value => some (.goesOn (result ++ String.ofList before ++ value) (String.ofList after)) := by
  have start : find "$\x7b" (String.ofList text) = some (String.utf8Len before) :=
    find_of_first narrow_opening opening
  have length : find "\x7d" (String.ofList opened) = some (String.utf8Len content) :=
    find_of_first narrow_closing closing
  -- The slices are taken out of the whole text, by the bytes in front of them.
  have whole : (before ++ ['$', '\x7b']) ++ (content ++ (['\x7d'] ++ after)) = text := by
    rw [closing.split, List.append_assoc, opening.split]
  have rest : slice? (String.ofList text) (String.utf8Len before + 2)
      (String.ofList text).utf8ByteSize = some (String.ofList opened) := opening.slice?_after
  have inside : slice? (String.ofList text) (String.utf8Len before + 2)
      (String.utf8Len before + 2 + String.utf8Len content) = some (String.ofList content) := by
    have slice := slice?_append (before ++ ['$', '\x7b']) content (['\x7d'] ++ after)
    rwa [whole, String.utf8Len_append] at slice
  have later : slice? (String.ofList text) (String.utf8Len before + 2 + String.utf8Len content + 1)
      (String.ofList text).utf8ByteSize = some (String.ofList after) := by
    have slice := slice?_rest (before ++ ['$', '\x7b'] ++ content ++ ['\x7d']) after
    simp only [List.append_assoc] at slice whole
    rwa [whole, String.utf8Len_append, String.utf8Len_append, String.utf8Len_append, ← Nat.add_assoc,
      ← Nat.add_assoc] at slice
  simp only [turn, start, rest, length, opening.slice?_before, inside, later, readContent_of_holds holds,
    Option.bind_eq_bind, Option.bind_some]

theorem turn_shrinks {result' later : String}
    (goesOn : turn properties result rest = some (.goesOn result' later)) :
    later.utf8ByteSize < rest.utf8ByteSize := by
  rw [← String.ofList_toList (s := rest)] at goesOn ⊢
  generalize rest.toList = text at goesOn ⊢
  have cut := cut_pieces text
  generalize pieces text = parts at cut
  cases cut with
  | rest unclosed =>
    rw [turn_of_unclosed unclosed] at goesOn
    cases goesOn
  | next opening closing holds _ =>
    have shorter := Nat.lt_trans (closing.shrinks (List.cons_ne_nil _ _))
      (opening.shrinks (List.cons_ne_nil _ _))
    obtain ⟨key, default?, rfl⟩ := holds.placeholder
    rw [turn_of_closed opening closing holds] at goesOn
    split at goesOn
    · cases goesOn
    · cases goesOn
      simpa only [String.utf8ByteSize_ofList] using shorter

end turn

section scan

def scan (properties : Registry String String) (result rest : String) : Option (Except String String) :=
  match _turned : turn properties result rest with
  | none => none
  | some (.ends outcome) => some outcome
  | some (.goesOn result' later) => scan properties result' later
termination_by rest.utf8ByteSize
decreasing_by exact turn_shrinks _turned

theorem scan_of_ends {outcome : Except String String}
    (ends : turn properties result rest = some (.ends outcome)) :
    scan properties result rest = some outcome := by
  rw [scan]
  split <;> simp_all

theorem scan_of_goesOn {result' later : String}
    (goesOn : turn properties result rest = some (.goesOn result' later)) :
    scan properties result rest = scan properties result' later := by
  rw [scan]
  split <;> simp_all

/-- From the rest of a text on, the scan adds to the result what the pieces of the rest come to. -/
theorem scan_of_cut (cut : Cut text parts) (result : String) :
    scan properties result (String.ofList text) =
      some ((filled properties parts).map (result ++ ·)) := by
  induction cut generalizing result with
  | rest unclosed =>
    rw [scan_of_ends (turn_of_unclosed unclosed result), filled_literal]
    rfl
  | @next text before opened content after piece parts opening closing holds later ih =>
    obtain ⟨key, default?, rfl⟩ := holds.placeholder
    have turned : turn properties result (String.ofList text) = _ :=
      turn_of_closed opening closing holds result
    rw [Fills.literal.filled_cons]
    cases supplied : (properties.get? (String.ofList key)).or (default?.map String.ofList) with
    | none =>
      obtain ⟨unknown, bare⟩ := Option.or_eq_none_iff.mp supplied
      obtain rfl := Option.map_eq_none_iff.mp bare
      rw [supplied] at turned
      have missing : filled properties (.placeholder key none :: parts) = .error (String.ofList key) :=
        filled_of_missing parts (List.forall_mem_nil _) unknown
      rw [scan_of_ends turned, missing]
      rfl
    | some value =>
      have fills : Fills properties (.placeholder key default?) value.toList := by
        rw [fills_placeholder_iff, supplied, String.ofList_toList]
      rw [supplied] at turned
      rw [scan_of_goesOn turned, ih, fills.filled_cons, String.ofList_toList]
      cases filled properties parts with
      | error key => rfl
      | ok text => simp only [Except.map, String.append_assoc]

end scan

end BeanWiring.Placeholder

namespace BeanWiring

/-- Putting the properties in is one substitution. -/
theorem Attempt.evaluate_substitutes (text : String) (c : Container) :
    ∃ (parts : List Placeholder.Piece) (outcome : Except String String),
      Placeholder.scan c.properties "" text = some outcome ∧
      (evaluate text).run.run c =
        (match outcome with
          | .ok value => .ok (.str value)
          | .error key => .error (.illegalState ("Could not resolve placeholder '" ++ key ++
              "' in value \"" ++ text ++ "\"")), c) ∧
      (∀ other, Placeholder.Cut text.toList other ↔ other = parts) ∧
      (∀ other, Placeholder.Substitutes c.properties text other ↔ other = outcome) ∧
      ((∃ key, outcome = .error key) ↔
        ∃ key, .placeholder key none ∈ parts ∧ c.properties.get? (String.ofList key) = none) ∧
      (¬ Placeholder.HasClosed text.toList → outcome = .ok text) := by
  refine ⟨Placeholder.pieces text.toList, Placeholder.filled c.properties _, ?scans, ?evaluates,
    fun _ => Placeholder.cut_iff, fun _ => Placeholder.substitutes_iff,
    Placeholder.filled_eq_error_iff _ _, ?unchanged⟩
  case scans =>
    have scanned : Placeholder.scan c.properties "" _ = _ :=
      Placeholder.scan_of_cut (Placeholder.cut_pieces text.toList) ""
    rw [String.ofList_toList] at scanned
    rw [scanned]
    cases Placeholder.filled c.properties (Placeholder.pieces text.toList) with
    | error key => rfl
    | ok value => exact congrArg (some ∘ Except.ok) String.empty_append
  case evaluates =>
    unfold Placeholder.filled evaluate
    rw [run_get_bind]
    cases Placeholder.substitute c.properties (Placeholder.pieces text.toList) <;> rfl
  case unchanged =>
    intro unclosed
    rw [← Placeholder.cut_iff.mp (.rest unclosed), Placeholder.filled_literal, String.ofList_toList]

end BeanWiring
