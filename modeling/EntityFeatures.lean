import EntityFeatures.Extractor.Configure
import EntityFeatures.Model.Lemmas
import EntityFeatures.Pipeline.Batch
import EntityFeatures.Pipeline.Stored
import EntityFeatures.Pipeline.Template
import EntityFeatures.Registry.Indexed
import EntityFeatures.Sentence.WordJson
import EntityFeatures.Span.Json
import EntityFeatures.Proofs.Extractor.RoundTrip
import EntityFeatures.Proofs.Extractor.Configuration
import EntityFeatures.Proofs.Pipeline.Template
import EntityFeatures.Proofs.Feature.Learning
import EntityFeatures.Proofs.Pipeline.Learning
import EntityFeatures.Proofs.Model.Preservation
import EntityFeatures.Proofs.Pipeline.RoundTrip
import EntityFeatures.Proofs.Feature.Reservation
import EntityFeatures.Proofs.Pipeline.Agreement
import EntityFeatures.Proofs.Feature.Ranking
import EntityFeatures.Proofs.Extractor.ClusterFile
import EntityFeatures.Proofs.Extractor.PhraseFile
import EntityFeatures.Proofs.Pipeline.Layout
import EntityFeatures.Proofs.Pipeline.Ownership
import EntityFeatures.Proofs.Extractor.PhraseEntries
import EntityFeatures.Proofs.Extractor.PhraseMatching
import EntityFeatures.Proofs.Pipeline.Settlement
import EntityFeatures.Proofs.Extractor.Scratch
import EntityFeatures.Proofs.Feature.Emission
import EntityFeatures.Proofs.Pipeline.Composition
import EntityFeatures.Proofs.Feature.Discovery
import EntityFeatures.Proofs.Pipeline.Corpus
import EntityFeatures.Proofs.Extractor.Origin
import EntityFeatures.Proofs.Extractor.Requests
import EntityFeatures.Proofs.Pipeline.Provenance
import EntityFeatures.Proofs.Model.Truncation
import EntityFeatures.Proofs.Pipeline.Truncation
import EntityFeatures.Proofs.Coupling
import EntityFeatures.Proofs.Extractor.Renewal
import EntityFeatures.Proofs.Pipeline.Renewal
import EntityFeatures.Proofs.Pipeline.TemplateLines
import EntityFeatures.Proofs.Model.Capacity
import EntityFeatures.Proofs.Extractor.Capacity
import EntityFeatures.Proofs.Pipeline.Capacity
import EntityFeatures.Proofs.Text.Encoding
import EntityFeatures.Proofs.Extractor.CanonicalForm
import EntityFeatures.Proofs.Extractor.Abandonment
import EntityFeatures.Proofs.Extractor.ClusterContents
import EntityFeatures.Proofs.Extractor.Exhaustion
import EntityFeatures.Proofs.Extractor.NumericForms
import EntityFeatures.Proofs.Text.AddressGrammar
import EntityFeatures.Proofs.Text.JsonBound
import EntityFeatures.Proofs.Span.Grouping
import EntityFeatures.Proofs.Span.Wrapping
import EntityFeatures.Proofs.Extractor.LocalFeatures
import EntityFeatures.Proofs.Pipeline.Neighbourhood
import EntityFeatures.Proofs.Extractor.LabelKeys
import EntityFeatures.Proofs.Pipeline.Refusal
import EntityFeatures.Proofs.Pipeline.LabelFeatures
import EntityFeatures.Proofs.Pipeline.BorderMarks
import EntityFeatures.Proofs.Registry.Lookup
import EntityFeatures.Proofs.Model.Projection
import EntityFeatures.Proofs.Registry.Indexed
import EntityFeatures.Proofs.Registry.History
import EntityFeatures.Proofs.Registry.Loading
import EntityFeatures.Proofs.Feature.Range
import EntityFeatures.Proofs.Model.FieldSequence
import EntityFeatures.Proofs.Model.Payment
import EntityFeatures.Proofs.Pipeline.Payment
import EntityFeatures.Proofs.Extractor.PhraseInvariant
