import EnvelopeWire.Builder.Lemmas
import EnvelopeWire.Main
import EnvelopeWire.Tool.Directory
import EnvelopeWire.Proofs.Builder.Alike
import EnvelopeWire.Proofs.Builder.Growth
import EnvelopeWire.Proofs.Builder.Kept
import EnvelopeWire.Proofs.Builder.Layout
import EnvelopeWire.Proofs.Builder.Misuse
import EnvelopeWire.Proofs.Builder.Regions
import EnvelopeWire.Proofs.Builder.Reset
import EnvelopeWire.Proofs.Description.Keys
import EnvelopeWire.Proofs.Reading.Chain
import EnvelopeWire.Proofs.Reading.Faithful
import EnvelopeWire.Proofs.Reading.Forced
import EnvelopeWire.Proofs.Reading.Forward
import EnvelopeWire.Proofs.Reading.Prefix
import EnvelopeWire.Proofs.Reading.Ranges
import EnvelopeWire.Proofs.Reading.References
import EnvelopeWire.Proofs.Reading.Relocation
import EnvelopeWire.Proofs.Reading.RoundTrip
import EnvelopeWire.Proofs.Reading.Settings
import EnvelopeWire.Proofs.Report.Lines
import EnvelopeWire.Proofs.Tool.HexInput
