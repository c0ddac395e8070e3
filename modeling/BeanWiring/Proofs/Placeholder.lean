import BeanWiring.Placeholder
import Mathlib.Data.List.Forall2
import Mathlib.Data.List.Infix

/-!
What a text with placeholders stands for, said without a search: the text is cut at each leftmost opening
that a brace closes, every piece has one text to put in for it or none, and what is put in is not cut
again. `substitute` on the `pieces` of a text is what this describes, and nothing else is.
-/
namespace BeanWiring.Placeholder

structure First (mark text before after : List Char) : Prop where
  split : before ++ (mark ++ after) = text
  leftmost : ∀ earlier later, earlier ++ (mark ++ later) = text → before.length ≤ earlier.length

def HasClosed (text : List Char) : Prop :=
  ∃ before content after, before ++ ('$' :: '\x7b' :: (content ++ '\x7d' :: after)) = text

/-- The placeholder with this text between its braces. The key ends at the first colon. -/
inductive Holds : List Char → Piece → Prop
  | bare {content} (plain : ':' ∉ content) : Holds content (.placeholder content none)
  | default {content key value} (first : First [':'] content key value) :
      Holds content (.placeholder key (some value))

inductive Cut : List Char → List Piece → Prop
  | rest {text} (unclosed : ¬ HasClosed text) : Cut text [.literal text]
  | next {text before opened content after piece parts}
      (opening : First ['$', '\x7b'] text before opened)
      (closing : First ['\x7d'] opened content after) (holds : Holds content piece)
      (later : Cut after parts) : Cut text (.literal before :: piece :: parts)

inductive Fills (properties : Registry String String) : Piece → List Char → Prop
  | literal {text} : Fills properties (.literal text) text
  | property {key default? value} (known : properties.get? (String.ofList key) = some value) :
      Fills properties (.placeholder key default?) value.toList
  | default {key value} (unknown : properties.get? (String.ofList key) = none) :
      Fills properties (.placeholder key (some value)) value

/-- A text with the properties put in, or the first key nothing can be put in for. -/
inductive Substitutes (properties : Registry String String) (text : String) :
    Except String String → Prop
  | filled {parts values} (cut : Cut text.toList parts)
      (fills : List.Forall₂ (Fills properties) parts values) :
      Substitutes properties text (.ok (String.ofList values.flatten))
  | missing {earlier key later} (cut : Cut text.toList (earlier ++ .placeholder key none :: later))
      (fills : ∀ piece ∈ earlier, ∃ value, Fills properties piece value)
      (unknown : properties.get? (String.ofList key) = none) :
      Substitutes properties text (.error (String.ofList key))

variable {mark text before after opened content key value : List Char} {piece : Piece}
  {parts : List Piece} {properties : Registry String String}

section First

def splitOnce (mark : List Char) : List Char → Option (List Char × List Char)
  | [] => none
  | c :: rest =>
    if mark.isPrefixOf (c :: rest) then some ([], (c :: rest).drop mark.length)
    else (splitOnce mark rest).map fun (before, after) => (c :: before, after)

theorem splitOpening_eq (text : List Char) : splitOpening text = splitOnce ['$', '\x7b'] text := by
  induction text using splitOpening.induct with
  | case1 => rfl
  | case2 rest => simp [splitOpening, splitOnce]
  | case3 c rest other ih =>
    have absent : ¬ ['$', '\x7b'] <+: c :: rest := by
      rintro ⟨later, same⟩
      obtain ⟨rfl, rfl⟩ := List.cons.inj same
      exact other later rfl rfl
    rw [splitOpening, splitOnce, if_neg (by rwa [List.isPrefixOf_iff_prefix]), ih]
    exact other

theorem splitAt_eq (c : Char) (text : List Char) : splitAt c text = splitOnce [c] text := by
  induction text with
  | nil => rfl
  | cons d rest ih =>
    have here : [c].isPrefixOf (d :: rest) = true ↔ d = c := by
      rw [List.isPrefixOf_iff_prefix, List.cons_prefix_cons, eq_comm]
      exact and_iff_left List.nil_prefix
    simp only [splitAt, splitOnce, here, ih, List.length_singleton, List.drop_succ_cons, List.drop_zero]

theorem First.cons {c : Char} (absent : ¬ mark <+: c :: text) (first : First mark text before after) :
    First mark (c :: text) (c :: before) after := by
  constructor
  · rw [List.cons_append, first.split]
  · intro earlier later same
    cases earlier with
    | nil => exact absurd ⟨later, same⟩ absent
    | cons d earlier =>
      have place := first.leftmost earlier later (List.cons.inj same).2
      simpa using place

theorem First.unique {before' after' : List Char} (first : First mark text before after)
    (first' : First mark text before' after') : before = before' ∧ after = after' := by
  have same := first.split.trans first'.split.symm
  have length := Nat.le_antisymm (first.leftmost _ _ first'.split) (first'.leftmost _ _ first.split)
  obtain ⟨rfl, rest⟩ := List.append_inj same length
  exact ⟨rfl, List.append_cancel_left rest⟩

theorem first_of_splitOnce (split : splitOnce mark text = some (before, after)) :
    First mark text before after := by
  induction text generalizing before with
  | nil => cases split
  | cons c rest ih =>
    rw [splitOnce] at split
    split at split
    · rename_i here
      cases split
      rw [List.isPrefixOf_iff_prefix, List.prefix_iff_eq_append] at here
      exact ⟨here, fun _ _ _ => Nat.zero_le _⟩
    · rename_i absent
      obtain ⟨⟨before', after'⟩, split, same⟩ := Option.map_eq_some_iff.mp split
      cases same
      exact (ih split).cons (by rwa [List.isPrefixOf_iff_prefix] at absent)

theorem notInfix_of_splitOnce (nonempty : mark ≠ []) (absent : splitOnce mark text = none) :
    ¬ mark <:+: text := by
  induction text with
  | nil => simpa using nonempty
  | cons c rest ih =>
    rw [splitOnce] at absent
    split at absent
    · cases absent
    · rename_i other
      rw [Option.map_eq_none_iff] at absent
      rw [List.isPrefixOf_iff_prefix] at other
      rw [List.infix_cons_iff]
      exact not_or.mpr ⟨other, ih absent⟩

theorem First.occurs (first : First mark text before after) : mark <:+: text :=
  ⟨before, after, by rw [List.append_assoc, first.split]⟩

theorem First.splitOnce (nonempty : mark ≠ []) (first : First mark text before after) :
    splitOnce mark text = some (before, after) := by
  cases split : Placeholder.splitOnce mark text with
  | none => exact absurd first.occurs (notInfix_of_splitOnce nonempty split)
  | some found =>
    obtain ⟨rfl, rfl⟩ := first.unique (first_of_splitOnce split)
    rfl

theorem splitOnce_eq_none (absent : ¬ mark <:+: text) : splitOnce mark text = none := by
  rw [Option.eq_none_iff_forall_ne_some]
  rintro ⟨before, after⟩ split
  exact absent (first_of_splitOnce split).occurs

theorem First.mem {c : Char} (first : First [c] text before after) : c ∈ text :=
  (List.singleton_infix_iff c text).mp first.occurs

theorem notMem_of_splitOnce {c : Char} (absent : splitOnce [c] text = none) : c ∉ text :=
  mt (List.singleton_infix_iff c text).mpr (notInfix_of_splitOnce (List.cons_ne_nil c []) absent)

end First

section Cut

theorem infix_of_hasClosed (closed : HasClosed text) : ['$', '\x7b'] <:+: text := by
  obtain ⟨before, content, after, rfl⟩ := closed
  exact ⟨before, content ++ '\x7d' :: after, by simp⟩

theorem hasClosed_iff (opening : First ['$', '\x7b'] text before opened) :
    HasClosed text ↔ '\x7d' ∈ opened := by
  constructor
  · rintro ⟨earlier, content, after, same⟩
    have place := opening.leftmost earlier _ same
    have rest := congrArg (List.drop (before.length + 2)) (opening.split.trans same.symm)
    have far : List.drop (before.length + 2) (before ++ (['$', '\x7b'] ++ opened)) = opened := by simp
    rw [far] at rest
    rw [rest]
    have whole : earlier ++ ('$' :: '\x7b' :: (content ++ '\x7d' :: after)) =
        (earlier ++ '$' :: '\x7b' :: content) ++ '\x7d' :: after := by simp
    rw [whole, List.drop_append_of_le_length (by simp; omega)]
    simp
  · intro member
    obtain ⟨content, after, rfl⟩ := List.append_of_mem member
    exact ⟨before, content, after, opening.split⟩

theorem Holds.placeholder (holds : Holds content piece) :
    ∃ key default?, piece = .placeholder key default? := by
  cases holds <;> exact ⟨_, _, rfl⟩

theorem Holds.unique {piece' : Piece} (holds : Holds content piece) (holds' : Holds content piece') :
    piece = piece' := by
  cases holds with
  | bare plain =>
    cases holds' with
    | bare => rfl
    | default first => exact absurd first.mem plain
  | default first =>
    cases holds' with
    | bare plain => exact absurd first.mem plain
    | default first' =>
      obtain ⟨rfl, rfl⟩ := first.unique first'
      rfl

theorem holds_ofContent (content : List Char) : Holds content (ofContent content) := by
  unfold ofContent
  rw [splitAt_eq]
  cases split : splitOnce [':'] content with
  | none => exact .bare (notMem_of_splitOnce split)
  | some found => exact .default (first_of_splitOnce split)

theorem Cut.unique {parts' : List Piece} (cut : Cut text parts) (cut' : Cut text parts') :
    parts = parts' := by
  induction cut generalizing parts' with
  | rest unclosed =>
    cases cut' with
    | rest => rfl
    | next opening closing =>
      exact absurd ((hasClosed_iff opening).mpr closing.mem) unclosed
  | next opening closing holds later ih =>
    cases cut' with
    | rest unclosed =>
      exact absurd ((hasClosed_iff opening).mpr closing.mem) unclosed
    | next opening' closing' holds' later' =>
      obtain ⟨rfl, rfl⟩ := opening.unique opening'
      obtain ⟨rfl, rfl⟩ := closing.unique closing'
      rw [holds.unique holds', ih later']

/-- The text shrinks by every placeholder, so its length bounds their number. -/
theorem cut_piecesWithin {count : Nat} (enough : text.length ≤ count) :
    Cut text (piecesWithin count text) := by
  induction count generalizing text with
  | zero =>
    obtain rfl : text = [] := by simpa using enough
    exact .rest fun closed => by simpa using infix_of_hasClosed closed
  | succ count ih =>
    unfold piecesWithin
    rw [splitOpening_eq]
    cases opening : splitOnce ['$', '\x7b'] text with
    | none =>
      exact .rest fun closed =>
        notInfix_of_splitOnce (List.cons_ne_nil _ _) opening (infix_of_hasClosed closed)
    | some found =>
      obtain ⟨before, opened⟩ := found
      have first := first_of_splitOnce opening
      dsimp only
      rw [splitAt_eq]
      cases closing : splitOnce ['\x7d'] opened with
      | none =>
        exact .rest fun closed => notMem_of_splitOnce closing ((hasClosed_iff first).mp closed)
      | some found =>
        obtain ⟨content, after⟩ := found
        have second := first_of_splitOnce closing
        have shorter : after.length ≤ count := by
          have outer := congrArg List.length first.split
          have inner := congrArg List.length second.split
          simp only [List.length_append, List.length_cons, List.length_nil] at outer inner
          omega
        exact .next first second (holds_ofContent content) (ih shorter)

theorem cut_pieces (text : List Char) : Cut text (pieces text) := cut_piecesWithin (Nat.le_refl _)

theorem cut_iff : Cut text parts ↔ parts = pieces text := by
  constructor
  · intro cut
    exact cut.unique (cut_pieces text)
  · rintro rfl
    exact cut_pieces text

end Cut

section Substitutes

theorem fills_placeholder_iff {default? : Option (List Char)} :
    Fills properties (.placeholder key default?) value ↔
      (properties.get? (String.ofList key)).or (default?.map String.ofList) =
        some (String.ofList value) := by
  constructor
  · intro fills
    cases fills with
    | property known => rw [known, Option.some_or, String.ofList_toList]
    | default unknown => rw [unknown, Option.none_or, Option.map_some]
  · intro supplied
    cases known : properties.get? (String.ofList key) with
    | some text =>
      rw [known, Option.some_or] at supplied
      have same := congrArg String.toList (Option.some.inj supplied)
      rw [String.toList_ofList] at same
      exact same ▸ .property known
    | none =>
      rw [known, Option.none_or] at supplied
      obtain ⟨value', rfl, same⟩ := Option.map_eq_some_iff.mp supplied
      rw [String.ofList_inj] at same
      exact same ▸ .default known

theorem fills_or (properties : Registry String String) (piece : Piece) :
    (∃ value, Fills properties piece value) ∨
      ∃ key, piece = .placeholder key none ∧ properties.get? (String.ofList key) = none := by
  cases piece with
  | literal text => exact .inl ⟨text, .literal⟩
  | placeholder key default? =>
    cases known : properties.get? (String.ofList key) with
    | some value => exact .inl ⟨value.toList, .property known⟩
    | none =>
      cases default? with
      | some value => exact .inl ⟨value, .default known⟩
      | none => exact .inr ⟨key, rfl, known⟩

theorem fills_all_or (properties : Registry String String) (parts : List Piece) :
    (∃ values, List.Forall₂ (Fills properties) parts values) ∨
      ∃ earlier key later, parts = earlier ++ .placeholder key none :: later ∧
        (∀ piece ∈ earlier, ∃ value, Fills properties piece value) ∧
        properties.get? (String.ofList key) = none := by
  induction parts with
  | nil => exact .inl ⟨[], .nil⟩
  | cons piece rest ih =>
    obtain ⟨value, first⟩ | ⟨key, rfl, unknown⟩ := fills_or properties piece
    · obtain ⟨values, fills⟩ | ⟨earlier, key, later, rfl, fills, unknown⟩ := ih
      · exact .inl ⟨value :: values, .cons first fills⟩
      · refine .inr ⟨piece :: earlier, key, later, rfl, ?_, unknown⟩
        exact List.forall_mem_cons.mpr ⟨⟨value, first⟩, fills⟩
    · exact .inr ⟨[], key, rest, rfl, List.forall_mem_nil _, unknown⟩

def filled (properties : Registry String String) (parts : List Piece) : Except String String :=
  ((substitute properties parts).map String.ofList).mapError String.ofList

theorem Fills.filled_cons (fills : Fills properties piece value) (rest : List Piece) :
    filled properties (piece :: rest) = (filled properties rest).map (String.ofList value ++ ·) := by
  have put : substitute properties (piece :: rest) = (substitute properties rest).map (value ++ ·) := by
    cases fills with
    | literal => rfl
    | property known => simp only [substitute, known]
    | default unknown => simp only [substitute, unknown]
  rw [filled, filled, put]
  cases substitute properties rest with
  | error key => rfl
  | ok text => exact congrArg Except.ok String.ofList_append

theorem filled_of_fills {values : List (List Char)}
    (fills : List.Forall₂ (Fills properties) parts values) :
    filled properties parts = .ok (String.ofList values.flatten) := by
  induction fills with
  | nil => rfl
  | cons first rest ih => rw [first.filled_cons, ih, Except.map, List.flatten_cons, String.ofList_append]

theorem filled_literal (text : List Char) : filled properties [.literal text] = .ok (String.ofList text) := by
  rw [filled_of_fills (.cons .literal .nil), List.flatten_singleton]

theorem filled_of_missing {earlier : List Piece} (later : List Piece)
    (fills : ∀ piece ∈ earlier, ∃ value, Fills properties piece value)
    (unknown : properties.get? (String.ofList key) = none) :
    filled properties (earlier ++ .placeholder key none :: later) = .error (String.ofList key) := by
  induction earlier with
  | nil =>
    simp only [List.nil_append, filled, substitute, unknown]
    rfl
  | cons piece rest ih =>
    obtain ⟨⟨value, first⟩, others⟩ := List.forall_mem_cons.mp fills
    rw [List.cons_append, first.filled_cons, ih others]
    rfl

theorem filled_eq_error_iff (properties : Registry String String) (parts : List Piece) :
    (∃ key, filled properties parts = .error key) ↔
      ∃ key, .placeholder key none ∈ parts ∧ properties.get? (String.ofList key) = none := by
  constructor
  · rintro ⟨key, failed⟩
    obtain ⟨values, fills⟩ | ⟨earlier, key, later, rfl, -, unknown⟩ := fills_all_or properties parts
    · rw [filled_of_fills fills] at failed
      cases failed
    · exact ⟨key, by simp, unknown⟩
  · rintro ⟨key, member, unknown⟩
    obtain ⟨values, fills⟩ | ⟨earlier, key, later, rfl, fills, unknown⟩ := fills_all_or properties parts
    · obtain ⟨i, bound, same⟩ := List.getElem_of_mem member
      have fill := fills.get bound (fills.length_eq ▸ bound)
      rw [List.get_eq_getElem, same, fills_placeholder_iff, unknown] at fill
      cases fill
    · exact ⟨String.ofList key, filled_of_missing later fills unknown⟩

theorem substitutes_iff {text : String} {outcome : Except String String} :
    Substitutes properties text outcome ↔ outcome = filled properties (pieces text.toList) := by
  have cut := cut_pieces text.toList
  constructor
  · intro substitutes
    cases substitutes with
    | filled cut' fills => rw [cut.unique cut', filled_of_fills fills]
    | missing cut' fills unknown => rw [cut.unique cut', filled_of_missing _ fills unknown]
  · rintro rfl
    obtain ⟨values, fills⟩ | ⟨earlier, key, later, same, fills, unknown⟩ :=
      fills_all_or properties (pieces text.toList)
    · rw [filled_of_fills fills]
      exact .filled cut fills
    · rw [same] at cut ⊢
      rw [filled_of_missing later fills unknown]
      exact .missing cut fills unknown

end Substitutes

end BeanWiring.Placeholder
