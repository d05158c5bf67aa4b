import StyleValue.Effect.Shadow
import StyleValue.Grammar.Grammar
import StyleValue.Name.CounterStyle
import StyleValue.Paint.Color
import StyleValue.Quantity.Item

namespace StyleValue

namespace Property

/-- Fonts, text and lists. -/
def typography : List Family :=
  [ ⟨["list-style-image"], .either [.keyword ["none"], .test Node.isUrl]⟩,
    ⟨["marker-offset"], .either [.keyword ["auto"], .test Node.isLength]⟩,
    ⟨["-moz-font-kerning", "-webkit-font-kerning", "font-kerning"],
      .keywords ["auto", "normal", "none"]⟩,
    ⟨["-moz-font-language-override", "-webkit-font-language-override",
      "font-language-override"],
      .either [.keyword ["normal"], .test Node.isQuoted]⟩,
    ⟨["-moz-hyphens", "-ms-hyphens", "-webkit-hyphens", "hyphens"],
      .keywords ["none", "manual", "auto"]⟩,
    ⟨["-moz-text-align-last", "text-align-last"],
      .keywords ["auto", "start", "end", "left", "right", "center", "justify"]⟩,
    ⟨["-moz-text-blink"], .keywords ["none", "blink"]⟩,
    ⟨["-moz-text-decoration-style", "-webkit-text-decoration-style",
      "text-decoration-style"],
      .keywords ["solid", "double", "dotted", "dashed", "wavy"]⟩,
    ⟨["-moz-text-size-adjust", "-ms-text-size-adjust",
      "-webkit-text-size-adjust", "text-size-adjust"],
      .either [.keyword ["none", "auto"], .test Node.isPercentage]⟩,
    ⟨["-ms-writing-mode"],
      .keywords ["horizontal-tb", "vertical-rl", "vertical-lr", "sideways-rl",
        "sideways-lr", "lr-tb", "tb-rl", "tb-lr"]⟩,
    ⟨["-webkit-text-fill-color", "-webkit-text-stroke-color",
      "text-decoration-color", "text-emphasis-color"],
      .item Node.isColor⟩,
    ⟨["-webkit-text-stroke-width"], .item Node.isLength⟩,
    ⟨["-webkit-writing-mode", "writing-mode"],
      .keywords ["horizontal-tb", "vertical-rl", "vertical-lr", "sideways-rl",
        "sideways-lr"]⟩,
    ⟨["direction"], .keywords ["ltr", "rtl"]⟩,
    ⟨["font-size"],
      .either [.test Node.isLengthPercentage, .keyword ["larger", "smaller"],
        .keyword ["xx-small", "x-small", "small", "medium", "large", "x-large",
        "xx-large"]]⟩,
    ⟨["font-size-adjust"], .either [.keyword ["none"], .test Node.isNumber]⟩,
    ⟨["font-stretch"],
      .keywords ["normal", "ultra-condensed", "extra-condensed", "condensed",
        "semi-condensed", "semi-expanded", "expanded", "extra-expanded",
        "ultra-expanded"]⟩,
    ⟨["font-style"], .keywords ["normal", "italic", "oblique"]⟩,
    ⟨["font-variant-caps"],
      .keywords ["normal", "small-caps", "all-small-caps", "petite-caps",
        "all-petite-caps", "unicase", "titling-caps"]⟩,
    ⟨["font-variant-position"], .keywords ["normal", "sub", "super"]⟩,
    ⟨["font-weight"],
      .keywords ["normal", "bold", "bolder", "lighter", "100", "200", "300",
        "400", "500", "600", "700", "800", "900"]⟩,
    ⟨["initial-letter-align"],
      .keywords ["auto", "alphabetic", "hanging", "ideographic"]⟩,
    ⟨["letter-spacing"], .either [.keyword ["normal"], .test Node.isLength]⟩,
    ⟨["line-break"], .keywords ["auto", "loose", "normal", "strict"]⟩,
    ⟨["line-height"],
      .either [.keyword ["normal"], .test Node.isLengthPercentage,
        .test Node.isNumber]⟩,
    ⟨["list-style-position"], .keywords ["inside", "outside"]⟩,
    ⟨["list-style-type"],
      .either [.keyword ["none"], .test Node.isQuoted,
        .test Node.isCounterStyle]⟩,
    ⟨["overflow-wrap", "word-wrap"], .keywords ["normal", "break-word"]⟩,
    ⟨["ruby-align"],
      .keywords ["start", "center", "space-between", "space-around"]⟩,
    ⟨["ruby-merge"], .keywords ["separate", "collapse", "auto"]⟩,
    ⟨["ruby-position"], .keywords ["over", "under", "inter-character"]⟩,
    ⟨["tab-size"], .either [.test Node.isLength, .test Node.isInteger]⟩,
    ⟨["text-align"],
      .keywords ["start", "end", "left", "right", "center", "justify",
        "match-parent"]⟩,
    ⟨["text-orientation"], .keywords ["mixed", "upright", "sideways"]⟩,
    ⟨["text-rendering"],
      .keywords ["auto", "optimizeSpeed", "optimizeLegibility",
        "geometricPrecision"]⟩,
    ⟨["text-shadow"], .oneOf [.whole (isShadowList .text), .keywords ["none"]]⟩,
    ⟨["text-transform"],
      .keywords ["none", "capitalize", "uppercase", "lowercase", "full-width"]⟩,
    ⟨["unicode-bidi"],
      .keywords ["normal", "embed", "isolate", "bidi-override",
        "isolate-override", "plaintext"]⟩,
    ⟨["vertical-align"],
      .either [.keyword ["baseline", "sub", "super", "text-top", "text-bottom",
        "middle", "top", "bottom"], .test Node.isLengthPercentage]⟩,
    ⟨["white-space"],
      .keywords ["normal", "pre", "nowrap", "pre-wrap", "pre-line"]⟩,
    ⟨["word-break"], .keywords ["normal", "break-all", "keep-all"]⟩,
    ⟨["word-spacing"],
      .either [.keyword ["normal"], .test Node.isLengthPercentage]⟩ ]

end Property

end StyleValue
