import Restyle.Text.Blank
import Restyle.Text.Alphanumeric
import Restyle.Text.LetterCase
import Restyle.Css.Rule
import Restyle.Css.Stylesheet
import Restyle.Number.Format
import Restyle.Style.PropertyName
import Restyle.Style.OfRules
import Restyle.Style.ToCss
import Restyle.Json.Reader
import Restyle.Json.Printer
import Restyle.Style.Module
import Restyle.Options.Json
import Restyle.Journal
import Restyle.Convert
import Restyle.Cli.Run
import Restyle.Main
import Restyle.Proofs.Entries
import Restyle.Proofs.Fallbacks
import Restyle.Proofs.Readers
import Restyle.Proofs.StrictReading
import Restyle.Proofs.Levels
import Restyle.Proofs.Places
import Restyle.Proofs.TokenEnds
import Restyle.Proofs.Boundaries
import Restyle.Proofs.Synchronisation
import Restyle.Proofs.StatementEnds
import Restyle.Proofs.RuleKeys
import Restyle.Proofs.Lenient
import Restyle.Proofs.Inert
import Restyle.Proofs.Spelling
import Restyle.Proofs.ReadBack
import Restyle.Proofs.Plain
import Restyle.Proofs.Rendering
import Restyle.Proofs.Numerals
import Restyle.Proofs.Units
import Restyle.Proofs.Casing
import Restyle.Proofs.RoundTrip
import Restyle.Proofs.JsonNumbers
import Restyle.Proofs.JsonLayouts
import Restyle.Proofs.JsonReadBack
import Restyle.Proofs.UniformRendering
import Restyle.Proofs.NormalValues
import Restyle.Proofs.WellFormed
import Restyle.Proofs.Grouping
import Restyle.Proofs.Shape
import Restyle.Proofs.Dashes
import Restyle.Proofs.FontFaces
import Restyle.Proofs.ModuleContents
import Restyle.Proofs.LongestNumerals
import Restyle.Proofs.UnitEndings
import Restyle.Proofs.AcceptedNumbers
import Restyle.Proofs.TextBytes
import Restyle.Proofs.NumeralBytes
import Restyle.Proofs.LineEnds
import Restyle.Proofs.SourcePlaces
import Restyle.Proofs.Extents
import Restyle.Proofs.ProblemPlaces
import Restyle.Proofs.SourceNames
import Restyle.Proofs.Outcomes
import Restyle.Proofs.Enclosed
import Restyle.Proofs.Chunks
import Restyle.Proofs.ScannedDeclarations
import Restyle.Proofs.Preludes
import Restyle.Proofs.Walkers
import Restyle.Proofs.Alignment
import Restyle.Proofs.UnclosedComments
import Restyle.Proofs.OpenBlocks
import Restyle.Proofs.ShortenedTexts
import Restyle.Proofs.Passages
import Restyle.Proofs.DividedPassages
import Restyle.Proofs.LevelPassages
import Restyle.Proofs.KeptTexts
import Restyle.Proofs.Turns
import Restyle.Proofs.TurnReadings
import Restyle.Proofs.TurnProgress
