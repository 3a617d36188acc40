import CallTrace.Main
import CallTrace.Proofs.CallTracer.Modes
import CallTrace.Proofs.Stream.Interleaving
import CallTrace.Proofs.Merge.FirstDefinition
import CallTrace.Proofs.Merge.Directory
import CallTrace.Proofs.Registry.Lookup
import CallTrace.Proofs.Tracer.Shutdown
import CallTrace.Proofs.CallTracer.Attribution
import CallTrace.Proofs.CallTracer.Distinct
import CallTrace.Proofs.CallTracer.Renaming
import CallTrace.Proofs.Merge.LostExits
import CallTrace.Proofs.Merge.Missing
import CallTrace.Proofs.Record.RoundTrip
import CallTrace.Proofs.Tracer.Configuration
import CallTrace.Proofs.Package.Finder
import CallTrace.Proofs.Record.Rewriting
import CallTrace.Proofs.Record.Locality
import CallTrace.Proofs.Stream.Packing
import CallTrace.Proofs.Endpoint.Writing
import CallTrace.Proofs.Request
import CallTrace.Proofs.Summary
import CallTrace.Proofs.LineTable
import CallTrace.Proofs.Settings
import CallTrace.Proofs.LineBuffer
