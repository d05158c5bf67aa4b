import StyleValue.Proofs.Sequence.Substitution
import StyleValue.Proofs.Text.LetterCase
import StyleValue.Proofs.Tree.NormalForm

/-! Items that are alike: they may differ in blanks, in quotes and what stands
between them, and in what is closed, and their words and names as far as a
likeness allows. A test that is put together from tests of names, words and
separators does not tell such items apart. -/

namespace StyleValue

/-- How far words and names of calls may differ: in letter case at most, and
words that are numbers not at all. -/
structure Likeness where
  words : String → String → Prop
  names : String → String → Prop
  sameWord : ∀ ⦃text later : String⦄, words text later → SameWord text later
  sameCase : ∀ ⦃name later : String⦄, names name later →
    lowerCase name = lowerCase later

namespace Likeness

/-- Words and names are the same. -/
def exact : Likeness where
  words text later := text = later
  names name later := name = later
  sameWord _ _ := .inl
  sameCase _ _ := congrArg lowerCase

/-- Words and names are the same up to letter case. -/
def caseless : Likeness where
  words := SameWord
  names name later := lowerCase name = lowerCase later
  sameWord _ _ := id
  sameCase _ _ := id

end Likeness

variable {like : Likeness}

namespace Node

inductive Alike (like : Likeness) : Node → Node → Prop
  | word {text later : String} (same : like.words text later) :
      Alike like (.word text) (.word later)
  | space {text later : String}
      (same : text = later ∨ IsBlankText text ∧ IsBlankText later) :
      Alike like (.space text) (.space later)
  | quoted {quote quote' : Char} {value value' : String}
      {closed closed' : Bool} :
      Alike like (.quoted quote value closed) (.quoted quote' value' closed')
  | divider {kind : Divider} {before before' after after' : String} :
      Alike like (.divider kind before after) (.divider kind before' after')
  | call {name name' before before' after after' : String}
      {args args' : List Node} {closed closed' : Bool}
      (named : like.names name name')
      (inside : List.Forall₂ (Alike like) args args') :
      Alike like (.call name before args after closed)
        (.call name' before' args' after' closed')

/-- The test does not tell items that are alike apart. -/
def Respects (like : Likeness) (test : Node → Bool) : Prop :=
  ∀ ⦃node later : Node⦄, node.Alike like later → test later = test node

end Node

abbrev AllAlike (like : Likeness) (nodes later : List Node) : Prop :=
  List.Forall₂ (Node.Alike like) nodes later

def RespectsAll (like : Likeness) (accepts : List Node → Bool) : Prop :=
  ∀ ⦃nodes later : List Node⦄, AllAlike like nodes later →
    accepts later = accepts nodes

/-! Exact likeness is an equivalence: items that are like a third one are
alike. -/

mutual

theorem Node.alike_refl : (node : Node) → node.Alike .exact node
  | .word _ => .word rfl
  | .space _ => .space (.inl rfl)
  | .quoted _ _ _ => .quoted
  | .divider _ _ _ => .divider
  | .call _ _ args _ _ => .call rfl (allAlike_refl args)

theorem allAlike_refl : (nodes : List Node) → AllAlike .exact nodes nodes
  | [] => .nil
  | node :: rest => .cons node.alike_refl (allAlike_refl rest)

end

theorem Node.alike_space_of_common {first second common : String}
    (same : first = common ∨ IsBlankText first ∧ IsBlankText common)
    (same' : second = common ∨ IsBlankText second ∧ IsBlankText common) :
    (Node.space first).Alike .exact (.space second) := by
  apply Node.Alike.space
  rcases same with rfl | ⟨blank, commonBlank⟩
  · exact same'.imp Eq.symm And.symm
  · rcases same' with rfl | ⟨blank', -⟩
    · exact .inr ⟨blank, commonBlank⟩
    · exact .inr ⟨blank, blank'⟩

mutual

theorem Node.alike_of_common :
    (first : Node) → {second common : Node} → first.Alike .exact common →
      second.Alike .exact common → first.Alike .exact second
  | .word _, _, _, .word same, .word same' =>
      .word (Eq.trans same (Eq.symm same'))
  | .space _, _, _, .space same, .space same' =>
      Node.alike_space_of_common same same'
  | .quoted _ _ _, _, _, .quoted, .quoted => .quoted
  | .divider _ _ _, _, _, .divider, .divider => .divider
  | .call _ _ args _ _, _, _, .call named inside, .call named' inside' =>
      .call (Eq.trans named (Eq.symm named'))
        (allAlike_of_common args inside inside')

theorem allAlike_of_common :
    (first : List Node) → {second common : List Node} →
      AllAlike .exact first common → AllAlike .exact second common →
        AllAlike .exact first second
  | [], _, _, .nil, .nil => .nil
  | node :: rest, _, _, .cons alike restAlike, .cons alike' restAlike' =>
      .cons (node.alike_of_common alike alike')
        (allAlike_of_common rest restAlike restAlike')

end

theorem AllAlike.symm {nodes later : List Node}
    (alike : AllAlike .exact nodes later) : AllAlike .exact later nodes :=
  allAlike_of_common later (allAlike_refl later) alike

theorem AllAlike.trans {nodes later last : List Node}
    (alike : AllAlike .exact nodes later) (alike' : AllAlike .exact later last) :
    AllAlike .exact nodes last :=
  allAlike_of_common nodes alike alike'.symm

/-! Tests of one item. -/

namespace Node

theorem Respects.or {first second : Node → Bool} (respects : Respects like first)
    (respects' : Respects like second) :
    Respects like fun node => first node || second node := by
  intro node later alike
  simp only [respects alike, respects' alike]

@[simp] theorem respects_isSpace : Respects like isSpace := by
  rintro _ _ (_ | _ | _ | _ | _) <;> rfl

@[simp] theorem respects_isQuoted : Respects like isQuoted := by
  rintro _ _ (_ | _ | _ | _ | _) <;> rfl

@[simp] theorem respects_isDivider : Respects like isDivider := by
  rintro _ _ (_ | _ | _ | _ | _) <;> rfl

@[simp] theorem respects_isDividerOf (kind : Divider) :
    Respects like (isDividerOf kind) := by
  rintro _ _ (_ | _ | _ | _ | _) <;> rfl

@[simp] theorem respects_isComma : Respects like isComma :=
  respects_isDividerOf .comma

@[simp] theorem respects_isSlash : Respects like isSlash :=
  respects_isDividerOf .slash

theorem respects_accepts (separator : Separator) :
    Respects like separator.accepts := by
  cases separator with
  | comma => exact respects_isComma
  | space => exact respects_isSpace

theorem respects_isWordThat {test : String → Bool}
    (respects : RespectsWords test) : Respects like (isWordThat test) := by
  intro node later alike
  cases alike with
  | word same => exact respects (like.sameWord same)
  | space | quoted | divider | call => rfl

@[simp] theorem respects_isKeyword (keywords : List String) :
    Respects like (isKeyword keywords) :=
  respects_isWordThat (isCaseless_anySameName keywords).respectsWords

@[simp] theorem respects_isCustomIdentifier : Respects like isCustomIdentifier :=
  respects_isWordThat Identifier.isCaseless_isValid.respectsWords

/-- Calls that are alike are calls to the same names. -/
theorem Alike.argsOf? {node later : Node} (alike : node.Alike like later)
    (names : List String) :
    Option.Rel (AllAlike like) (node.argsOf? names) (later.argsOf? names) := by
  cases alike with
  | word | space | quoted | divider => exact .none
  | call named inside =>
      have same := (isCaseless_anySameName names).eq (like.sameCase named)
      simp only [Node.argsOf?, same]
      split
      · exact .some inside
      · exact .none

theorem any_eq_of_rel {accepts : List Node → Bool}
    (respects : RespectsAll like accepts) {nodes later : Option (List Node)}
    (related : Option.Rel (AllAlike like) nodes later) :
    later.any accepts = nodes.any accepts := by
  cases related with
  | some alike => exact respects alike
  | none => rfl

theorem isSome_eq_of_rel {nodes later : Option (List Node)}
    (related : Option.Rel (AllAlike like) nodes later) :
    later.isSome = nodes.isSome := by
  cases related with
  | some => rfl
  | none => rfl

theorem respects_anyArgs {accepts : List Node → Bool}
    (respects : RespectsAll like accepts) (names : List String) :
    Respects like fun node => (node.argsOf? names).any accepts :=
  fun _ _ alike => any_eq_of_rel respects (alike.argsOf? names)

@[simp] theorem respects_isCallTo (names : List String) :
    Respects like (isCallTo names) := by
  intro node later alike
  exact isSome_eq_of_rel (alike.argsOf? names)

@[simp] theorem respects_isVariable : Respects like isVariable :=
  respects_isCallTo _

@[simp] theorem respects_isUrl : Respects like isUrl :=
  respects_isCallTo _

@[simp] theorem respects_isKeywordOrVariable (keywords : List String) :
    Respects like (isKeywordOrVariable keywords) :=
  (respects_isKeyword keywords).or respects_isVariable

end Node

/-! Tests of sequences. -/

open Node (Respects)

theorem respectsAll_isListOf {item : Node → Bool}
    (respects : Respects like item) (separator : Separator) :
    RespectsAll like (isListOf item separator) := by
  intro nodes later alike
  fun_induction isListOf item separator nodes generalizing later with
  | case1 =>
      cases alike
      rfl
  | case2 node =>
      obtain _ | ⟨itemAlike, ⟨⟩⟩ := alike
      exact respects itemAlike
  | case3 node gap rest ih =>
      obtain _ | ⟨itemAlike, _ | ⟨gapAlike, restAlike⟩⟩ := alike
      rw [isListOf, respects itemAlike,
        Node.respects_accepts separator gapAlike, ih restAlike]

theorem respectsAll_isTupleOf {items : List (Node → Bool)}
    (respects : ∀ item ∈ items, Respects like item) (separator : Separator) :
    RespectsAll like (isTupleOf separator items) := by
  induction items with
  | nil =>
      intro nodes later _
      simp only [isTupleOf]
  | cons item items ih =>
      have itemRespects := respects item List.mem_cons_self
      have restRespects := ih fun other member =>
        respects other (List.mem_cons_of_mem item member)
      intro nodes later alike
      obtain _ | ⟨itemAlike, _ | ⟨gapAlike, restAlike⟩⟩ := alike
      · cases items <;> simp only [isTupleOf]
      · cases items with
        | nil => exact itemRespects itemAlike
        | cons => simp only [isTupleOf]
      · simp only [isTupleOf, itemRespects itemAlike,
          Node.respects_accepts separator gapAlike, restRespects restAlike]

theorem rel_map_cons {node later : Node} (alike : node.Alike like later)
    {items laterItems : Option (List Node)}
    (related : Option.Rel (AllAlike like) items laterItems) :
    Option.Rel (AllAlike like) (items.map (node :: ·))
      (laterItems.map (later :: ·)) := by
  cases related with
  | some itemsAlike => exact .some (.cons alike itemsAlike)
  | none => exact .none

theorem AllAlike.spacedItems? {nodes later : List Node}
    (alike : AllAlike like nodes later) :
    Option.Rel (AllAlike like) (spacedItems? nodes) (spacedItems? later) := by
  fun_induction StyleValue.spacedItems? nodes generalizing later with
  | case1 =>
      cases alike
      exact .none
  | case2 node =>
      obtain _ | ⟨itemAlike, ⟨⟩⟩ := alike
      exact .some (.cons itemAlike .nil)
  | case3 node gap rest isGap ih =>
      obtain _ | ⟨itemAlike, _ | ⟨gapAlike, restAlike⟩⟩ := alike
      rw [StyleValue.spacedItems?, Node.respects_isSpace gapAlike, if_pos isGap]
      exact rel_map_cons itemAlike (ih restAlike)
  | case4 node gap rest notGap =>
      obtain _ | ⟨itemAlike, _ | ⟨gapAlike, restAlike⟩⟩ := alike
      rw [StyleValue.spacedItems?, Node.respects_isSpace gapAlike,
        if_neg notGap]
      exact .none

theorem respectsAll_anySpacedItems {accepts : List Node → Bool}
    (respects : RespectsAll like accepts) :
    RespectsAll like fun nodes => (spacedItems? nodes).any accepts :=
  fun _ _ alike => Node.any_eq_of_rel respects alike.spacedItems?

theorem AllAlike.commaGroups {nodes later : List Node}
    (alike : AllAlike like nodes later) :
    List.Forall₂ (AllAlike like) (commaGroups nodes) (commaGroups later) :=
  forall₂_groupsBy Node.respects_isComma alike

theorem respectsAll_allGroups {accepts : List Node → Bool}
    (respects : RespectsAll like accepts) :
    RespectsAll like fun nodes => (commaGroups nodes).all accepts :=
  fun _ _ alike => all_eq_of_forall₂ respects alike.commaGroups

/-! Signatures. -/

theorem Signature.respects_fits {signature : Signature}
    (respects : ∀ parameter ∈ signature.parameters, Respects like parameter) :
    Respects like signature.fits :=
  Node.respects_anyArgs (respectsAll_isTupleOf respects .comma) signature.names

theorem Signature.respects_anyFits {signatures : List Signature}
    (respects : ∀ signature ∈ signatures,
      ∀ parameter ∈ signature.parameters, Respects like parameter) :
    Respects like fun node => signatures.any (·.fits node) := by
  intro node later alike
  rw [Bool.eq_iff_iff, List.any_eq_true, List.any_eq_true]
  refine exists_congr fun signature => and_congr_right fun member => ?_
  rw [Signature.respects_fits (respects signature member) alike]

end StyleValue
