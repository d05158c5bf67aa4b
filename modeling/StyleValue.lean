import StyleValue.Effect.Shadow
import StyleValue.Geometry.Position
import StyleValue.Geometry.Shape
import StyleValue.Geometry.Transform
import StyleValue.Grammar.Grammar
import StyleValue.Grammar.Rule
import StyleValue.Motion.Easing
import StyleValue.Name.Call
import StyleValue.Name.CounterStyle
import StyleValue.Name.Identifier
import StyleValue.Paint.Box
import StyleValue.Paint.Color
import StyleValue.Paint.Gradient
import StyleValue.Paint.Image
import StyleValue.Paint.NamedColor
import StyleValue.Proofs.Effect.Contiguity
import StyleValue.Proofs.Effect.Counts
import StyleValue.Proofs.Effect.Shadow
import StyleValue.Proofs.Geometry.Axis
import StyleValue.Proofs.Geometry.Likeness
import StyleValue.Proofs.Geometry.Placement
import StyleValue.Proofs.Geometry.Slice
import StyleValue.Proofs.Geometry.Transform
import StyleValue.Proofs.Grammar.Choice
import StyleValue.Proofs.Grammar.Fault
import StyleValue.Proofs.Grammar.Language
import StyleValue.Proofs.Grammar.Layers
import StyleValue.Proofs.Grammar.Likeness
import StyleValue.Proofs.Grammar.Substitution
import StyleValue.Proofs.Grammar.Walk
import StyleValue.Proofs.Name.CounterStyle
import StyleValue.Proofs.Name.Identifier
import StyleValue.Proofs.Name.Keyword
import StyleValue.Proofs.Paint.CrossFade
import StyleValue.Proofs.Paint.Distinct
import StyleValue.Proofs.Paint.Gradient
import StyleValue.Proofs.Paint.Kinds
import StyleValue.Proofs.Paint.Likeness
import StyleValue.Proofs.Paint.Order
import StyleValue.Proofs.Property.Choice
import StyleValue.Proofs.Property.Comment
import StyleValue.Proofs.Property.Complaint
import StyleValue.Proofs.Property.Content
import StyleValue.Proofs.Property.Layers
import StyleValue.Proofs.Property.Likeness
import StyleValue.Proofs.Property.Substitution
import StyleValue.Proofs.Quantity.Expression
import StyleValue.Proofs.Quantity.Family
import StyleValue.Proofs.Quantity.Likeness
import StyleValue.Proofs.Quantity.Numeral
import StyleValue.Proofs.Quantity.Operand
import StyleValue.Proofs.Quantity.Rounding
import StyleValue.Proofs.Quantity.Scanning
import StyleValue.Proofs.Quantity.Split
import StyleValue.Proofs.Quantity.Threshold
import StyleValue.Proofs.Quantity.Value
import StyleValue.Proofs.Sequence.Chain
import StyleValue.Proofs.Sequence.Spaced
import StyleValue.Proofs.Sequence.Substitution
import StyleValue.Proofs.Text.Encoding
import StyleValue.Proofs.Text.LetterCase
import StyleValue.Proofs.Text.LookBack
import StyleValue.Proofs.Text.Place
import StyleValue.Proofs.Text.Protection
import StyleValue.Proofs.Text.Search
import StyleValue.Proofs.Text.Span
import StyleValue.Proofs.Tree.Address
import StyleValue.Proofs.Tree.Bytes
import StyleValue.Proofs.Tree.Canonical
import StyleValue.Proofs.Tree.Closing
import StyleValue.Proofs.Tree.Comment
import StyleValue.Proofs.Tree.Extension
import StyleValue.Proofs.Tree.Locality
import StyleValue.Proofs.Tree.Lossless
import StyleValue.Proofs.Tree.NormalForm
import StyleValue.Proofs.Tree.Presentation
import StyleValue.Proofs.Tree.Reading
import StyleValue.Proofs.Tree.Recovery
import StyleValue.Proofs.Tree.RoundTrip
import StyleValue.Proofs.Tree.Scanning
import StyleValue.Proofs.Tree.Spelling
import StyleValue.Property.Flex
import StyleValue.Property.Interface
import StyleValue.Property.Layout
import StyleValue.Property.Motion
import StyleValue.Property.Surface
import StyleValue.Property.Typography
import StyleValue.Quantity.Binary64
import StyleValue.Quantity.Calc
import StyleValue.Quantity.Decimal
import StyleValue.Quantity.Dimension
import StyleValue.Quantity.Item
import StyleValue.Quantity.Word
import StyleValue.Sequence.Separated
import StyleValue.Text.Escape
import StyleValue.Text.Symbol
import StyleValue.Tree.Lexeme
import StyleValue.Tree.Node
import StyleValue.Tree.Parse
import StyleValue.Validation
