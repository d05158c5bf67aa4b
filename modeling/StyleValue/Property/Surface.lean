import StyleValue.Effect.Shadow
import StyleValue.Geometry.Position
import StyleValue.Geometry.Shape
import StyleValue.Grammar.Grammar
import StyleValue.Paint.Box
import StyleValue.Paint.Color
import StyleValue.Paint.Image
import StyleValue.Quantity.Item

namespace StyleValue

namespace Property

def blendModes : List String :=
  ["normal", "multiply", "screen", "overlay", "darken", "lighten",
    "color-dodge", "color-burn", "hard-light", "soft-light", "difference",
    "exclusion", "hue", "saturation", "color", "luminosity"]

/-- Colors, borders, backgrounds, masks and effects. -/
def surface : List Family :=
  [ ⟨["-ms-interpolation-mode"],
      .keywords ["auto", "crisp-edges", "pixelated", "nearest-neighbor"]⟩,
    ⟨["-o-object-fit", "object-fit"],
      .keywords ["fill", "contain", "cover", "none", "scale-down"]⟩,
    ⟨["-webkit-backdrop-filter", "-webkit-filter", "backdrop-filter", "filter"],
      .oneOf [.looseSpaceList (.test Node.isFilterFunction),
        .keywords ["none"]]⟩,
    ⟨["-webkit-border-before-color", "background-color",
      "border-block-end-color", "border-block-start-color",
      "border-bottom-color", "border-inline-end-color",
      "border-inline-start-color", "border-left-color", "border-right-color",
      "border-top-color", "color", "column-rule-color"],
      .item Node.isColor⟩,
    ⟨["-webkit-border-before-style", "border-block-end-style",
      "border-block-start-style", "border-inline-end-style",
      "border-inline-start-style", "border-style"],
      .spaceListUpTo 4 (.test Node.isLineStyle)⟩,
    ⟨["-webkit-border-before-width", "border-block-end-width",
      "border-block-start-width", "border-inline-end-width",
      "border-inline-start-width", "border-width"],
      .spaceListUpTo 4 (.test Node.isLineWidth)⟩,
    ⟨["-webkit-box-decoration-break", "box-decoration-break"],
      .keywords ["slice", "clone"]⟩,
    ⟨["-webkit-clip-path", "clip-path"],
      .either [.keyword ["none"], .test Node.isClipSource]⟩,
    ⟨["-webkit-mask-attachment", "background-attachment"],
      .commaList (.keyword ["scroll", "fixed", "local"])⟩,
    ⟨["-webkit-mask-composite"],
      .commaList (.keyword ["clear", "copy", "source-over", "source-in",
        "source-out", "source-atop", "destination-over", "destination-in",
        "destination-out", "destination-atop", "xor"])⟩,
    ⟨["-webkit-mask-position", "background-position", "mask-position"],
      .whole isPositionList⟩,
    ⟨["-webkit-mask-repeat", "background-repeat", "mask-repeat"],
      .whole Layer.isRepeatStyleList⟩,
    ⟨["-webkit-mask-repeat-x", "-webkit-mask-repeat-y"],
      .keywords ["repeat", "no-repeat", "space", "round"]⟩,
    ⟨["outline-offset"], .item Node.isLength⟩,
    ⟨["background-blend-mode"], .commaList (.keyword blendModes)⟩,
    ⟨["background-clip", "background-origin"], .commaList (.test Node.isBox)⟩,
    ⟨["background-image", "mask-image"],
      .commaList (.anyOf [.keyword ["none"], .check Node.imageVerdict])⟩,
    ⟨["background-size", "mask-size"], .whole Layer.isSizeList⟩,
    ⟨["border-bottom-left-radius", "border-bottom-right-radius",
      "border-top-left-radius", "border-top-right-radius"],
      .spaceListUpTo 2 (.test Node.isLengthPercentage)⟩,
    ⟨["border-bottom-style", "border-left-style", "border-right-style",
      "border-top-style", "column-rule-style"],
      .item Node.isLineStyle⟩,
    ⟨["border-bottom-width", "border-left-width", "border-right-width",
      "border-top-width", "column-rule-width", "outline-width"],
      .item Node.isLineWidth⟩,
    ⟨["border-collapse"], .keywords ["collapse", "separate"]⟩,
    ⟨["border-color"], .spaceListUpTo 4 (.test Node.isColor)⟩,
    ⟨["border-image-source"],
      .either [.keyword ["none"], .check Node.imageVerdict]⟩,
    ⟨["opacity", "shape-image-threshold"], .item Node.isNumber⟩,
    ⟨["shape-margin"], .item Node.isLengthPercentage⟩,
    ⟨["image-rendering"],
      .keywords ["auto", "crisp-edges", "pixelated",
        "-webkit-optimize-contrast", "-moz-crisp-edges", "-o-pixelated"]⟩,
    ⟨["isolation"], .keywords ["auto", "isolate"]⟩,
    ⟨["mask-composite"],
      .commaList (.keyword ["add", "subtract", "intersect", "exclude"])⟩,
    ⟨["mask-mode"],
      .commaList (.keyword ["alpha", "luminance", "match-source"])⟩,
    ⟨["mask-origin"], .commaList (.test Node.isGeometryBox)⟩,
    ⟨["mask-type"], .keywords ["luminance", "alpha"]⟩,
    ⟨["mix-blend-mode"], .keywords blendModes⟩,
    ⟨["object-position"], .whole isPosition⟩,
    ⟨["outline-color"], .either [.keyword ["invert"], .test Node.isColor]⟩,
    ⟨["outline-style"], .either [.keyword ["auto"], .test Node.isLineStyle]⟩,
    ⟨["box-shadow"], .oneOf [.whole (isShadowList .box), .keywords ["none"]]⟩ ]

end Property

end StyleValue
