import RelationalAvro.Avro.Compact
import RelationalAvro.EnumPool.Family
import RelationalAvro.Main
import RelationalAvro.Proofs.Avro.SchemaText
import RelationalAvro.Proofs.Conversion.Inlining
import RelationalAvro.Proofs.Conversion.ReadBack
import RelationalAvro.Proofs.Export.Clashes
import RelationalAvro.Proofs.Export.Effect
import RelationalAvro.Proofs.EnumPool.Answers
import RelationalAvro.Proofs.Avro.WellFormed
import RelationalAvro.Proofs.Config.Drafting
import RelationalAvro.Proofs.Conversion.WellFormed
import RelationalAvro.Proofs.CommandLine.Arguments
import RelationalAvro.Proofs.CommandLine.Printing
import RelationalAvro.Proofs.Conversion.TableOrder
import RelationalAvro.Proofs.Conversion.Verbatim
import RelationalAvro.Proofs.Export.Accepted
import RelationalAvro.Proofs.Mapping.StemMatching
import RelationalAvro.Proofs.Mapping.LetterCase
import RelationalAvro.Proofs.CommandLine.Rearranging
import RelationalAvro.Proofs.Mapping.LongestStem
import RelationalAvro.Proofs.Avro.Recovery
import RelationalAvro.Proofs.Conversion.InlinedText
import RelationalAvro.Proofs.Avro.Indentation
import RelationalAvro.Proofs.Config.Settled
import RelationalAvro.Proofs.Conversion.OneMoreEnum
import RelationalAvro.Proofs.Namespaces
