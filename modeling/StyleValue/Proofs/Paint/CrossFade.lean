import StyleValue.Paint.Image
import StyleValue.Proofs.Sequence.Substitution

/-! What stands inside a call to `cross-fade` that passes for an image. Three of
its places are read, and what is there has to fit; the others are free. -/

namespace StyleValue

def Node.isCrossFade (node : Node) : Bool :=
  (node.argsOf? ["cross-fade"]).any fun args =>
    Image.isCrossFade (Image.markArguments args)

theorem Node.isCrossFade_call_iff {name before after : String}
    {args : List Node} {closed : Bool} :
    (Node.call name before args after closed).isCrossFade = true ↔
      sameName name "cross-fade" = true ∧
        Image.isCrossFade (Image.markArguments args) = true := by
  rw [isCrossFade, any_argsOf?_iff]
  constructor
  · intro found
    obtain ⟨_, _, _, _, _, ⟨⟩, ⟨known, isKnown, named⟩, fits⟩ := found
    rw [List.mem_singleton.mp isKnown] at named
    exact ⟨named, fits⟩
  · intro found
    exact ⟨name, before, args, after, closed, rfl,
      ⟨"cross-fade", List.mem_singleton_self _, found.1⟩, found.2⟩

/-- Of calls to `cross-fade` no other rule for images has a say. -/
theorem Node.isImage_crossFade {name before after : String} {args : List Node}
    {closed : Bool} (named : sameName name "cross-fade" = true) :
    (Node.call name before args after closed).isImage =
      Image.isCrossFade (Image.markArguments args) := by
  let node := Node.call name before args after closed
  have isCall : node.isCallTo ["cross-fade"] = true := by
    simp [node, isCallTo, argsOf?, named]
  have apart (others : List String)
      (differ : ∀ other ∈ others, sameName "cross-fade" other = false) :
      node.argsOf? others = none :=
    argsOf?_of_isCallTo isCall (List.forall_mem_singleton.mpr differ)
  have notUrl : node.isUrl = false := by
    rw [isUrl, isCallTo, apart _ (by decide +kernel)]
    rfl
  have notGradient : node.isGradient = false := by
    rw [isGradient, apart _ (by decide +kernel), apart _ (by decide +kernel)]
    rfl
  have sameCase : lowerCase name = lowerCase "cross-fade" :=
    beq_iff_eq.mp named
  have unnamed (other : String) (differ : sameName "cross-fade" other = false) :
      sameName name other = false := by
    rwa [sameName, sameCase]
  rw [isImage, imageVerdict, Image.callVerdict, notUrl, notGradient,
    unnamed "element" (by decide +kernel), unnamed "image" (by decide +kernel),
    unnamed "image-set" (by decide +kernel), named]
  exact Verdict.isAccept_ofBool _

namespace Image

/-- The places of the arguments that are read. -/
def readPlaces : List Nat :=
  [0, 2, 4]

/-- What an argument may be: something to fade, or what divides two of them. -/
def IsFadePart (node : Node) : Prop :=
  node.isPercentage = true ∨ node.isImage = true ∨ node.isColor = true ∨
    node.isSpace = true ∨ node.isComma = true

variable {args later : List Node}

theorem isCrossFade_markArguments :
    isCrossFade (markArguments args) =
      (args[0]?.any (fun arg => arg.isPercentage || arg.isImage) &&
        args[2]?.all (fun arg => arg.isPercentage || arg.isImage) &&
        args[4]?.all fun arg => arg.isImage || arg.isColor) := by
  simp only [isCrossFade, markArguments_eq_map, List.getElem?_map,
    Option.any_map, Option.all_map]
  rfl

/-- What is at the other places makes no difference. -/
theorem isCrossFade_of_readPlaces
    (same : ∀ place ∈ readPlaces, later[place]? = args[place]?) :
    isCrossFade (markArguments later) = isCrossFade (markArguments args) := by
  rw [isCrossFade_markArguments, isCrossFade_markArguments,
    same 0 (by decide), same 2 (by decide), same 4 (by decide)]

section

variable (accepted : isCrossFade (markArguments args) = true)

include accepted

theorem isFadePart_of_readPlaces {place : Nat} {arg : Node}
    (isRead : place ∈ readPlaces) (found : args[place]? = some arg) :
    IsFadePart arg := by
  rw [isCrossFade_markArguments, Bool.and_eq_true, Bool.and_eq_true] at accepted
  obtain ⟨⟨first, second⟩, last⟩ := accepted
  have isOperand :
      (arg.isPercentage || arg.isImage) = true → IsFadePart arg := by
    intro operand
    rcases Bool.or_eq_true_iff.mp operand with isPercentage | isImage
    · exact .inl isPercentage
    · exact .inr (.inl isImage)
  simp only [readPlaces, List.mem_cons, List.not_mem_nil, or_false] at isRead
  rcases isRead with rfl | rfl | rfl
  · rw [found] at first
    exact isOperand first
  · rw [found] at second
    exact isOperand second
  · rw [found] at last
    rcases Bool.or_eq_true_iff.mp last with isImage | isColor
    · exact .inr (.inl isImage)
    · exact .inr (.inr (.inl isColor))

/-- If no argument is an image, the first two values are percentages and the
third is a color, as far as there are any. -/
theorem exists_isImage_or_of_isCrossFade :
    (∃ arg ∈ args, arg.isImage = true) ∨
      args[0]?.any Node.isPercentage = true ∧
        args[2]?.all Node.isPercentage = true ∧
        args[4]?.all Node.isColor = true := by
  by_cases someImage : ∃ arg ∈ args, arg.isImage = true
  · exact .inl someImage
  · have notImage {place : Nat} {arg : Node} (found : args[place]? = some arg) :
        arg.isImage = false := by
      rw [← Bool.not_eq_true]
      intro isImage
      exact someImage ⟨arg, List.mem_of_getElem? found, isImage⟩
    rw [isCrossFade_markArguments, Bool.and_eq_true,
      Bool.and_eq_true] at accepted
    obtain ⟨⟨first, second⟩, last⟩ := accepted
    refine .inr ⟨?_, ?_, ?_⟩
    · obtain ⟨arg, found, operand⟩ := (Option.any_eq_true _ _).mp first
      rw [notImage found, Bool.or_false] at operand
      rw [found]
      exact operand
    · cases found : args[2]? with
      | none => rfl
      | some arg =>
          rw [found, Option.all_some, notImage found, Bool.or_false] at second
          exact second
    · cases found : args[4]? with
      | none => rfl
      | some arg =>
          rw [found, Option.all_some, notImage found, Bool.false_or] at last
          exact last

end

end Image

/-- A call to `cross-fade` that passes is an image. All its arguments are parts
of a fade if those at the places that are not read are, and whatever is put at
these places, the call still passes. One of the arguments is an image, unless
all that is read are percentages and a color at the end. -/
theorem Node.arguments_of_isCrossFade {name before after : String}
    {args : List Node} {closed : Bool}
    (accepted : (Node.call name before args after closed).isCrossFade = true) :
    (Node.call name before args after closed).isImage = true ∧
      ((∀ place arg, args[place]? = some arg → place ∉ Image.readPlaces →
          Image.IsFadePart arg) →
        ∀ arg ∈ args, Image.IsFadePart arg) ∧
      (∀ later : List Node,
        (∀ place ∈ Image.readPlaces, later[place]? = args[place]?) →
        (Node.call name before later after closed).isCrossFade = true) ∧
      ((∃ arg ∈ args, arg.isImage = true) ∨
        args[0]?.any isPercentage = true ∧
          args[2]?.all isPercentage = true ∧
          args[4]?.all isColor = true) := by
  obtain ⟨named, fits⟩ := isCrossFade_call_iff.mp accepted
  refine ⟨(isImage_crossFade named).trans fits, ?_, ?_,
    Image.exists_isImage_or_of_isCrossFade fits⟩
  · intro othersFit arg member
    obtain ⟨place, found⟩ := List.mem_iff_getElem?.mp member
    by_cases isRead : place ∈ Image.readPlaces
    · exact Image.isFadePart_of_readPlaces fits isRead found
    · exact othersFit place arg found isRead
  · intro later same
    have laterFits := (Image.isCrossFade_of_readPlaces same).trans fits
    exact isCrossFade_call_iff.mpr ⟨named, laterFits⟩

theorem Node.arguments_of_isCrossFade_percentage :
    (Node.call "cross-fade" ""
        [.word "50%", .space " ", .call "url" "" [.word "a.png"] "" true,
          .divider .comma "" " ", .word "red"] "" true).isCrossFade = true ∧
      (∀ arg ∈ [.word "50%", .space " ", .call "url" "" [.word "a.png"] "" true,
          .divider .comma "" " ", .word "red"], Image.IsFadePart arg) ∧
      (Node.call "cross-fade" ""
        [.word "50%", .word "%", .call "url" "" [.word "a.png"] "" true,
          .word "%", .word "red", .word "%"] "" true).isCrossFade = true := by
  have accepted : (Node.call "cross-fade" ""
      [.word "50%", .space " ", .call "url" "" [.word "a.png"] "" true,
        .divider .comma "" " ", .word "red"] "" true).isCrossFade = true := by
    decide +kernel
  obtain ⟨-, parts, free, -⟩ := Node.arguments_of_isCrossFade accepted
  refine ⟨accepted, parts ?_, free _ ?_⟩
  · intro place arg found notRead
    obtain _ | _ | _ | _ | _ | place := place
    · exact absurd (by decide) notRead
    · cases found
      exact .inr (.inr (.inr (.inl rfl)))
    · exact absurd (by decide) notRead
    · cases found
      exact .inr (.inr (.inr (.inr rfl)))
    · exact absurd (by decide) notRead
    · contradiction
  · intro place isRead
    simp only [Image.readPlaces, List.mem_cons, List.not_mem_nil,
      or_false] at isRead
    rcases isRead with rfl | rfl | rfl <;> rfl

/-- A percentage alone passes, and so does any word after the color. -/
theorem Node.isCrossFade_unread_arguments :
    (Node.call "cross-fade" "" [.word "50%"] "" true).isCrossFade = true ∧
      (∀ arg ∈ [Node.word "50%"], arg.isImage = false) ∧
      (Node.call "cross-fade" ""
        [.call "url" "" [.word "a.png"] "" true, .divider .comma "" " ",
          .call "url" "" [.word "b.png"] "" true, .divider .comma "" " ",
          .word "red", .divider .comma "" " ", .word "junk"]
        "" true).isCrossFade = true ∧
      ¬ Image.IsFadePart (.word "junk") := by
  unfold Image.IsFadePart
  decide +kernel

end StyleValue
