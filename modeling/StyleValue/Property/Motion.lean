import StyleValue.Geometry.Position
import StyleValue.Geometry.Transform
import StyleValue.Grammar.Grammar
import StyleValue.Motion.Easing
import StyleValue.Quantity.Item

namespace StyleValue

namespace Property

/-- Transforms, animations and transitions. -/
def motion : List Family :=
  [ ⟨["-moz-backface-visibility", "-webkit-backface-visibility",
      "backface-visibility"],
      .keywords ["visible", "hidden"]⟩,
    ⟨["-moz-perspective", "-webkit-perspective", "perspective"],
      .either [.keyword ["none"], .test Node.isLength]⟩,
    ⟨["-moz-transform", "-ms-transform", "-o-transform", "-webkit-transform",
      "transform"],
      .oneOf [.looseSpaceList (.test Node.isTransformFunction),
        .keywords ["none"]]⟩,
    ⟨["-moz-transform-style", "-webkit-transform-style", "transform-style"],
      .keywords ["flat", "preserve-3d"]⟩,
    ⟨["animation-delay", "animation-duration", "transition-delay",
      "transition-duration"],
      .commaList (.test Node.isTime)⟩,
    ⟨["animation-direction"],
      .commaList (.keyword ["normal", "reverse", "alternate",
        "alternate-reverse"])⟩,
    ⟨["animation-fill-mode"],
      .commaList (.keyword ["none", "forwards", "backwards", "both"])⟩,
    ⟨["animation-iteration-count"], .commaList (.test Node.isIterationCount)⟩,
    ⟨["animation-name"], .commaList (.test Node.isAnimationName)⟩,
    ⟨["animation-play-state"], .commaList (.keyword ["running", "paused"])⟩,
    ⟨["animation-timing-function", "transition-timing-function"],
      .commaList (.test Node.isTimingFunction)⟩,
    ⟨["motion-offset"], .item Node.isLengthPercentage⟩,
    ⟨["perspective-origin"], .whole isPosition⟩,
    ⟨["transform-box"], .keywords ["border-box", "fill-box", "view-box"]⟩,
    ⟨["will-change"],
      .oneOf [.keywords ["auto"], .commaList (.test Node.isAnimatableFeature)]⟩ ]

end Property

end StyleValue
