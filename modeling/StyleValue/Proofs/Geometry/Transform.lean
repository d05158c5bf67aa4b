import StyleValue.Proofs.Grammar.Walk
import StyleValue.Proofs.Property.Complaint
import StyleValue.Proofs.Sequence.Chain

/-! Transforms: a value is a list of calls, and which calls are transforms is
said by a table of names and arguments. The same calls are told by four tests,
each with a way of its own to count what stands inside. -/

namespace StyleValue

namespace Transform

open Node (isAngle isLength isLengthPercentage isNumber)

/-- Functions, by their names in lower case, and the lists of arguments that
they take, with one test for each argument. -/
structure Usage where
  names : List String
  parameterLists : List (List (Node → Bool))

def usages : List Usage :=
  [ ⟨["matrix"], [List.replicate 6 isNumber]⟩,
    ⟨["matrix3d"], [List.replicate 16 isNumber]⟩,
    ⟨["rotate", "skewx", "skewy", "rotatex", "rotatey", "rotatez"],
      [[isAngle]]⟩,
    ⟨["perspective", "translatez"], [[isLength]]⟩,
    ⟨["translatex", "translatey"], [[isLengthPercentage]]⟩,
    ⟨["scalex", "scaley", "scalez"], [[isNumber]]⟩,
    ⟨["translate"],
      [[isLengthPercentage], [isLengthPercentage, isLengthPercentage]]⟩,
    ⟨["scale"], [[isNumber], [isNumber, isNumber]]⟩,
    ⟨["skew"], [[isAngle], [isAngle, isAngle]]⟩,
    ⟨["translate3d"], [[isLengthPercentage, isLengthPercentage, isLength]]⟩,
    ⟨["scale3d"], [[isNumber, isNumber, isNumber]]⟩,
    ⟨["rotate3d"], [[isNumber, isNumber, isNumber, isAngle]]⟩ ]

/-- A call whose name is in the table, with one argument in each group of what
stands inside it. -/
def IsCall : Node → Prop
  | .call name _ args _ _ =>
      ∃ usage ∈ usages, lowerCase name ∈ usage.names ∧
        ∃ parameters ∈ usage.parameterLists,
          List.Forall₂ IsOne parameters (commaGroups args)
  | _ => False

/-! The table has the names and parameters of the signatures, row by row. -/

def Usage.rows (usage : Usage) : List (List String × List (Node → Bool)) :=
  usage.parameterLists.map fun parameters => (usage.names, parameters)

def rowOf (signature : Signature) : List String × List (Node → Bool) :=
  (signature.names.map lowerCase, signature.parameters)

theorem map_rowOf_signatures :
    signatures.map rowOf = usages.flatMap Usage.rows := by
  have names : signatures.map (fun signature =>
      signature.names.map lowerCase) =
      (usages.flatMap Usage.rows).map Prod.fst := by
    decide +kernel
  have parameters : signatures.map Signature.parameters =
      (usages.flatMap Usage.rows).map Prod.snd := rfl
  calc
    signatures.map rowOf =
      (signatures.map fun signature => signature.names.map lowerCase).zip
        (signatures.map Signature.parameters) := List.zip_map'.symm
    _ = ((usages.flatMap Usage.rows).map Prod.fst).zip
        ((usages.flatMap Usage.rows).map Prod.snd) := by
      rw [names, parameters]
    _ = usages.flatMap Usage.rows := (List.zip_of_prod rfl rfl).symm

theorem rejectsCommas_of_mem {signature : Signature}
    (member : signature ∈ signatures) :
    ∀ parameter ∈ signature.parameters, RejectsCommas parameter := by
  have number : RejectsCommas isNumber :=
    rejectsCommas_of_divider fun _ _ _ => rfl
  have angle : RejectsCommas isAngle :=
    rejectsCommas_of_divider fun _ _ _ => rfl
  have length : RejectsCommas isLength :=
    rejectsCommas_of_divider fun _ _ _ => rfl
  have lengthPercentage : RejectsCommas isLengthPercentage :=
    rejectsCommas_of_divider fun _ _ _ => rfl
  have allReject : ∀ signature ∈ signatures,
      ∀ parameter ∈ signature.parameters, RejectsCommas parameter := by
    simp [signatures, matrices, unary, paired, spatial, number, angle, length,
      lengthPercentage]
  exact allReject signature member

theorem any_fits_call_iff {name before after : String} {args : List Node}
    {closed : Bool} :
    signatures.any (·.fits (.call name before args after closed)) = true ↔
      IsCall (.call name before args after closed) := by
  have rows_iff :
      (∃ row ∈ signatures.map rowOf, lowerCase name ∈ row.1 ∧
        List.Forall₂ IsOne row.2 (commaGroups args)) ↔
      ∃ row ∈ usages.flatMap Usage.rows, lowerCase name ∈ row.1 ∧
        List.Forall₂ IsOne row.2 (commaGroups args) := by
    rw [map_rowOf_signatures]
  rw [List.any_eq_true]
  constructor
  · intro found
    obtain ⟨signature, member, fits⟩ := found
    have parts := (Signature.fits_call_iff (rejectsCommas_of_mem member)).mp fits
    obtain ⟨row, isRow, named, filled⟩ :=
      rows_iff.mp ⟨_, List.mem_map_of_mem member, parts⟩
    obtain ⟨usage, isUsage, inUsage⟩ := List.mem_flatMap.mp isRow
    obtain ⟨parameters, isList, rfl⟩ := List.mem_map.mp inUsage
    exact ⟨usage, isUsage, named, parameters, isList, filled⟩
  · intro isCall
    obtain ⟨usage, isUsage, named, parameters, isList, filled⟩ := isCall
    have isRow : (usage.names, parameters) ∈ usages.flatMap Usage.rows :=
      List.mem_flatMap.mpr ⟨usage, isUsage, List.mem_map_of_mem isList⟩
    obtain ⟨row, isSignature, parts⟩ := rows_iff.mpr ⟨_, isRow, named, filled⟩
    obtain ⟨signature, member, rfl⟩ := List.mem_map.mp isSignature
    exact ⟨signature, member,
      (Signature.fits_call_iff (rejectsCommas_of_mem member)).mpr parts⟩

end Transform

theorem Node.isTransformFunction_iff {node : Node} :
    node.isTransformFunction = true ↔
      node.isVariable = true ∨ Transform.IsCall node := by
  rw [isTransformFunction, Bool.or_eq_true, or_comm]
  refine or_congr_right ?_
  cases node with
  | call => exact Transform.any_fits_call_iff
  | word | space | quoted | divider =>
      exact iff_of_false Bool.false_ne_true id

/-! The four tests. -/

namespace Transform

open Node (isAngle isLength isLengthPercentage isNumber)

/-- How many numbers a matrix holds is told by its name. -/
def isMatrix (node : Node) : Bool :=
  (node.argsOf? ["matrix", "matrix3d"]).any fun args =>
    let count := if node.isCallTo ["matrix"] then 6 else 16
    args.length == count * 2 - 1 && isListOf isNumber .comma args

def singles : List (List String × (Node → Bool)) :=
  [ (["rotate", "skewX", "skewY", "rotateX", "rotateY", "rotateZ"], isAngle),
    (["perspective", "translateZ"], isLength),
    (["translateX", "translateY"], isLengthPercentage),
    (["scaleX", "scaleY", "scaleZ"], isNumber) ]

def isOnly (test : Node → Bool) : List Node → Bool
  | [only] => test only
  | _ => false

def isSingle (node : Node) : Bool :=
  singles.any fun row => (node.argsOf? row.1).any (isOnly row.2)

def pairs : List (String × (Node → Bool)) :=
  [("translate", isLengthPercentage), ("scale", isNumber), ("skew", isAngle)]

/-- Two values and the comma between them are three nodes. -/
def isPaired (node : Node) : Bool :=
  pairs.any fun row => (node.argsOf? [row.1]).any fun args =>
    args.length ≤ 3 && isListOf row.2 .comma args

def isSpatial (node : Node) : Bool :=
  match node.argsOf? ["translate3d"] with
  | some args =>
      isTupleOf .comma [isLengthPercentage, isLengthPercentage, isLength] args
  | none =>
      match node.argsOf? ["scale3d"] with
      | some args => isTupleOf .comma [isNumber, isNumber, isNumber] args
      | none =>
          match node.argsOf? ["rotate3d"] with
          | some args =>
              isTupleOf .comma [isNumber, isNumber, isNumber, isAngle] args
          | none => false

variable {node : Node} {item : Node → Bool} {separator : Separator}
  {args : List Node}

theorem length_and_isListOf {count : Nat} (positive : 0 < count) :
    (args.length == count * 2 - 1 && isListOf item separator args) =
      isTupleOf separator (List.replicate count item) args := by
  have lengths : (args.length == count * 2 - 1) =
      (args.length + 1 == 2 * count) := by
    rw [Bool.eq_iff_iff, beq_iff_eq, beq_iff_eq]
    omega
  rw [isTupleOf_replicate, lengths, Bool.and_comm]

theorem isOnly_eq : isOnly item args = isTupleOf separator [item] args := by
  obtain _ | ⟨only, _ | ⟨gap, rest⟩⟩ := args
  · rfl
  · rfl
  · rw [isTupleOf_cons_cons]
    exact (Bool.and_false _).symm

/-- A list has an odd length, so one of three nodes at most has one item or two. -/
theorem length_le_three_and_isListOf :
    (decide (args.length ≤ 3) && isListOf item separator args) =
      (isTupleOf separator [item] args ||
        isTupleOf separator [item, item] args) := by
  have one := isTupleOf_replicate item separator 1 args
  have two := isTupleOf_replicate item separator 2 args
  simp only [List.replicate] at one two
  rw [one, two, ← Bool.and_or_distrib_left, Bool.and_comm]
  cases isList : isListOf item separator args with
  | false => rfl
  | true =>
      have odd := (isListOf_iff_fitsPlaces.mp isList).1
      rw [Bool.eq_iff_iff, Bool.true_and, Bool.true_and, decide_eq_true_eq,
        Bool.or_eq_true, beq_iff_eq, beq_iff_eq]
      omega

theorem isMatrix_eq : isMatrix node = matrices.any (·.fits node) := by
  have either : node.argsOf? ["matrix", "matrix3d"] =
      (node.argsOf? ["matrix"]).or (node.argsOf? ["matrix3d"]) :=
    Node.argsOf?_append ["matrix"] ["matrix3d"]
  simp only [isMatrix, either, matrices, List.any_cons, List.any_nil,
    Signature.fits, Bool.or_false]
  cases small : node.argsOf? ["matrix"] with
  | none =>
      have notSmall : node.isCallTo ["matrix"] = false := by
        rw [Node.isCallTo, small]
        rfl
      rw [notSmall, Option.none_or, Option.any_none, Bool.false_or]
      exact congrArg (node.argsOf? ["matrix3d"]).any
        (funext fun _ => length_and_isListOf (by decide))
  | some args =>
      have isSmall : node.isCallTo ["matrix"] = true := by
        rw [Node.isCallTo, small]
        rfl
      have notLarge : node.argsOf? ["matrix3d"] = none :=
        Node.argsOf?_of_isCallTo isSmall (by decide +kernel)
      rw [isSmall, notLarge, Option.some_or, Option.any_none, Bool.or_false]
      exact length_and_isListOf (by decide)

theorem isSingle_eq : isSingle node = unary.any (·.fits node) := by
  have rows : unary = singles.map fun row => ⟨row.1, [row.2]⟩ := rfl
  rw [rows, List.any_map, isSingle]
  apply List.any_congr rfl
  intro row
  exact congrArg (node.argsOf? row.1).any (funext fun _ => isOnly_eq)

theorem isPaired_eq : isPaired node = paired.any (·.fits node) := by
  have rows : paired = pairs.flatMap fun row =>
      [⟨[row.1], [row.2]⟩, ⟨[row.1], [row.2, row.2]⟩] := rfl
  rw [rows, List.any_flatMap, isPaired]
  apply List.any_congr rfl
  intro row
  rw [List.any_cons, List.any_cons, List.any_nil, Bool.or_false,
    Signature.fits, Signature.fits]
  cases node.argsOf? [row.1] with
  | none => rfl
  | some args => exact length_le_three_and_isListOf

def spatialCalls : List (List String × (List Node → Bool)) :=
  spatial.map fun signature =>
    (signature.names, isTupleOf .comma signature.parameters)

theorem isSpatial_eq : isSpatial node = spatial.any (·.fits node) := by
  have chain : isSpatial node =
      (classify? (callCases spatialCalls node) node).getD false := by
    simp only [spatialCalls, spatial, List.map_cons, List.map_nil,
      getD_classify?_callCases_cons]
    rfl
  rw [chain, any_of_callCases (by decide +kernel) (.refl _), spatialCalls,
    List.any_map]
  rfl

end Transform

/-- The table and the tests tell the same calls. -/
theorem Node.isTransformFunction_eq_or (node : Node) :
    node.isTransformFunction =
      (Transform.isMatrix node || Transform.isSingle node ||
        Transform.isPaired node || Transform.isSpatial node ||
        node.isVariable) := by
  rw [isTransformFunction, Transform.isMatrix_eq, Transform.isSingle_eq,
    Transform.isPaired_eq, Transform.isSpatial_eq, Transform.signatures,
    List.any_append, List.any_append, List.any_append]

theorem Property.grammar?_transform :
    grammar? "transform" =
      some (.oneOf [.looseSpaceList (.test Node.isTransformFunction),
        .keywords ["none"]]) := rfl

theorem Grammar.check_keywords_iff {keywords : List String}
    {nodes : List Node} :
    (Grammar.keywords keywords).check nodes = .accept ↔
      ∃ node, nodes = [node] ∧ node.isKeyword keywords = true := by
  rw [check_eq_accept_iff_describes]
  constructor
  · intro described
    cases described with
    | @single rule node taken =>
        cases taken with
        | keyword isKeyword => exact ⟨node, rfl, isKeyword⟩
  · intro isOne
    obtain ⟨node, rfl, isKeyword⟩ := isOne
    exact .single (.keyword isKeyword)

namespace Transform

def IsList (nodes : List Node) : Prop :=
  ∃ functions listed, Spaced functions listed ∧
    (∀ function ∈ functions,
      function.isVariable = true ∨ IsCall function) ∧
    (nodes = listed ∨ ∃ gap, gap.isSpace = true ∧ nodes = listed ++ [gap])

theorem check_looseSpaceList_iff_isList {nodes : List Node} :
    (Grammar.looseSpaceList (.test Node.isTransformFunction)).check nodes =
        .accept ↔ nodes = [] ∨ IsList nodes := by
  have item_iff (value : Node) :
      value.isVariable = true ∨
          (ItemRule.test Node.isTransformFunction).verdict value = .accept ↔
        value.isVariable = true ∨ IsCall value := by
    rw [ItemRule.verdict, Verdict.ofBool_eq_accept_iff,
      Node.isTransformFunction_iff, ← or_assoc, or_self]
  simp only [Grammar.check_looseSpaceList_iff, item_iff]
  rfl

theorem IsList.ne_nil {nodes : List Node} (isList : IsList nodes) :
    nodes ≠ [] := by
  obtain ⟨functions, listed, spaced, -, rfl | ⟨gap, -, rfl⟩⟩ := isList
  · cases spaced with
    | one | more => exact List.cons_ne_nil _ _
  · exact List.append_ne_nil_of_right_ne_nil _ (List.cons_ne_nil _ _)

theorem isList_of_isVariable {node : Node}
    (isVariable : node.isVariable = true) : IsList [node] :=
  ⟨[node], [node], .one node, List.forall_mem_singleton.mpr (.inl isVariable),
    .inl rfl⟩

end Transform

theorem Property.exists_transform_iff {nodes : List Node} :
    (∃ grammar, grammar? "transform" = some grammar ∧
        grammar.check nodes = .accept) ↔
      (nodes = [] ∨ Transform.IsList nodes) ∨
        ∃ node, nodes = [node] ∧ node.isKeyword ["none"] = true := by
  have notYet : Verdict.mismatch ≠ .accept := by decide
  rw [grammar?_transform]
  simp only [Option.some.injEq, exists_eq_left', Grammar.check,
    Grammar.checkAny_eq_accept_iff notYet, List.exists_mem_cons_iff]
  rw [Transform.check_looseSpaceList_iff_isList, Grammar.check_keywords_iff]
  simp

/-- A transform is a keyword that every property takes, the keyword `none`, or
functions with a space between neighbours and perhaps one more at the end. -/
theorem validateNodes_transform_iff (nodes : List Node) :
    validateNodes "transform" nodes = .valid ↔
      (∃ node, nodes = [node] ∧
        (node.isGlobalKeyword = true ∨ node.isKeyword ["none"] = true)) ∨
      Transform.IsList nodes := by
  rw [validateNodes_eq_valid_iff, isUniversal_eq_true_iff,
    Property.exists_transform_iff]
  constructor
  · intro valid
    rcases valid with ⟨node, rfl, isGlobal | isVariable⟩ |
      ⟨nonempty, (isNil | isList) | ⟨node, rfl, isNone⟩⟩
    · exact .inl ⟨node, rfl, .inl isGlobal⟩
    · exact .inr (Transform.isList_of_isVariable isVariable)
    · contradiction
    · exact .inr isList
    · exact .inl ⟨node, rfl, .inr isNone⟩
  · intro described
    rcases described with ⟨node, rfl, isGlobal | isNone⟩ | isList
    · exact .inl ⟨node, rfl, .inl isGlobal⟩
    · exact .inr ⟨List.cons_ne_nil _ _, .inr ⟨node, rfl, isNone⟩⟩
    · exact .inr ⟨isList.ne_nil, .inl (.inr isList)⟩

end StyleValue
