import StyleValue.Quantity.Item

namespace StyleValue

namespace Transform

/-- Functions of one argument. -/
def unary : List Signature :=
  [ ⟨["rotate", "skewX", "skewY", "rotateX", "rotateY", "rotateZ"],
      [Node.isAngle]⟩,
    ⟨["perspective", "translateZ"], [Node.isLength]⟩,
    ⟨["translateX", "translateY"], [Node.isLengthPercentage]⟩,
    ⟨["scaleX", "scaleY", "scaleZ"], [Node.isNumber]⟩ ]

/-- Functions of one or two arguments of one kind. -/
def paired : List Signature :=
  [ ⟨["translate"], [Node.isLengthPercentage]⟩,
    ⟨["translate"], [Node.isLengthPercentage, Node.isLengthPercentage]⟩,
    ⟨["scale"], [Node.isNumber]⟩,
    ⟨["scale"], [Node.isNumber, Node.isNumber]⟩,
    ⟨["skew"], [Node.isAngle]⟩,
    ⟨["skew"], [Node.isAngle, Node.isAngle]⟩ ]

def spatial : List Signature :=
  [ ⟨["translate3d"],
      [Node.isLengthPercentage, Node.isLengthPercentage, Node.isLength]⟩,
    ⟨["scale3d"], [Node.isNumber, Node.isNumber, Node.isNumber]⟩,
    ⟨["rotate3d"],
      [Node.isNumber, Node.isNumber, Node.isNumber, Node.isAngle]⟩ ]

def matrices : List Signature :=
  [ ⟨["matrix"], List.replicate 6 Node.isNumber⟩,
    ⟨["matrix3d"], List.replicate 16 Node.isNumber⟩ ]

def signatures : List Signature :=
  matrices ++ unary ++ paired ++ spatial

end Transform

def Node.isTransformFunction (node : Node) : Bool :=
  Transform.signatures.any (·.fits node) || node.isVariable

end StyleValue
