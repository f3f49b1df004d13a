import JsonShape.Formatter
import JsonShape.Main
import JsonShape.Session
import JsonShape.Proofs.Evidence
import JsonShape.Proofs.Observations
import JsonShape.Proofs.Sessions
import JsonShape.Proofs.Discovery
import JsonShape.Proofs.DistinctNames
import JsonShape.Proofs.DistinctKeys
import JsonShape.Proofs.Loop
import JsonShape.Proofs.Alike
import JsonShape.Proofs.SchemaNames
import JsonShape.Proofs.MemberOrder
import JsonShape.Proofs.NormalForm
import JsonShape.Proofs.Undated
import JsonShape.Proofs.DateDetection
import JsonShape.Proofs.Conversion
import JsonShape.Proofs.Rendering
import JsonShape.Proofs.WrittenDates
import JsonShape.Proofs.DeclarationOrder
import JsonShape.Proofs.References
import JsonShape.Proofs.Limits
import JsonShape.Proofs.Outcome
import JsonShape.Proofs.SampleTexts
import JsonShape.Proofs.QuotedKeys
import JsonShape.Proofs.Legibility
import JsonShape.Proofs.LegibleTypes
import JsonShape.Proofs.LegibleSchemas
import JsonShape.Proofs.Akin
import JsonShape.Proofs.ElementOrder
import JsonShape.Proofs.MergedShape
import JsonShape.Proofs.MergeAlgebra
import JsonShape.Proofs.Forms
import JsonShape.Proofs.SameObjects
import JsonShape.Proofs.FirstFreeName
import JsonShape.Proofs.ArrayOfObjects
import JsonShape.Proofs.Repetition
import JsonShape.Proofs.GivenOptions
import JsonShape.Proofs.CommandLine
import JsonShape.Proofs.RenderingLoop
import JsonShape.Proofs.Reports
import JsonShape.Proofs.ConstantPlace
import JsonShape.Proofs.PropertyNames
import JsonShape.Proofs.TypeNames
import JsonShape.Proofs.DateGrammar
import JsonShape.Proofs.SettingsObject
import JsonShape.Proofs.FormatterCalls
import JsonShape.Proofs.RepeatedCommand
import JsonShape.Proofs.Indentation
import JsonShape.Proofs.PathTexts
import JsonShape.Proofs.WordForms
