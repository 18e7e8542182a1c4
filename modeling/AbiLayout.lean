import AbiLayout.Main
import AbiLayout.Description.Dump
import AbiLayout.Settings.Dump
import AbiLayout.Proofs.Declarators.Chain
import AbiLayout.Proofs.Declarators.Reading
import AbiLayout.Proofs.Declarators.Shape
import AbiLayout.Proofs.Declarators.Constness
import AbiLayout.Proofs.Records.Body
import AbiLayout.Proofs.Records.Fault
import AbiLayout.Proofs.Records.Agreement
import AbiLayout.Proofs.Headers.Pieces
import AbiLayout.Proofs.Names.Collision
import AbiLayout.Proofs.Headers.TypeNames
import AbiLayout.Proofs.Declarators.LeafName
import AbiLayout.Proofs.Records.Qualification
import AbiLayout.Proofs.Sequence
import AbiLayout.Proofs.Headers.Assembly
import AbiLayout.Proofs.Reports.Analysis
import AbiLayout.Proofs.Reports.Restriction
import AbiLayout.Proofs.Exclusion
import AbiLayout.Proofs.Reports.Agreement
import AbiLayout.Proofs.Names.Declarable
import AbiLayout.Proofs.Offsets.Places
import AbiLayout.Proofs.Records.DistinctNames
import AbiLayout.Proofs.Offsets.Distinct
import AbiLayout.Proofs.Names.Canonical
import AbiLayout.Proofs.Headers.Identifiers
import AbiLayout.Proofs.Descriptions.RoundTrip
import AbiLayout.Proofs.Headers.Independence
import AbiLayout.Proofs.Descriptions.Formats
import AbiLayout.Proofs.Runs.Codegen
import AbiLayout.Proofs.Runs.HeadersInPlace
import AbiLayout.Proofs.Reports.PrintedEnumerators
import AbiLayout.Proofs.Records.Voids
import AbiLayout.Proofs.Enumerations.Declaration
import AbiLayout.Proofs.Declarators.SameRefusals
import AbiLayout.Proofs.Models.Acceptance
import AbiLayout.Proofs.Models.Lookup
import AbiLayout.Proofs.Records.Flattening
import AbiLayout.Proofs.Enumerations.Constants
import AbiLayout.Proofs.Offsets.Members
import AbiLayout.Proofs.Offsets.Components
import AbiLayout.Proofs.Headers.InlineTypes
import AbiLayout.Proofs.Buffers.Writing
import AbiLayout.Proofs.Buffers.Declarations
import AbiLayout.Proofs.Buffers.AppendOnly
import AbiLayout.Proofs.Names.Retraction
import AbiLayout.Proofs.Offsets.Paths
import AbiLayout.Proofs.Documents.References
import AbiLayout.Proofs.Documents.ByKey
import AbiLayout.Proofs.Settings.Layers
import AbiLayout.Proofs.Settings.Combining
