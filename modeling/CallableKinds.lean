import CallableKinds.Frozen.Store
import CallableKinds.Proofs.Requests
import CallableKinds.Proofs.Sources
import CallableKinds.Rule
import CallableKinds.Segments
import CallableKinds.Session.Step
import CallableKinds.Source.Serializer
import CallableKinds.WeakTable.Scope
import CallableKinds.Proofs.Transparency
import CallableKinds.Proofs.Chain
import CallableKinds.Proofs.Classification
import CallableKinds.Proofs.Studies
import CallableKinds.Proofs.Sessions
import CallableKinds.Proofs.Coherence
import CallableKinds.Proofs.Locality
import CallableKinds.Proofs.Boundaries
import CallableKinds.Proofs.LineBreaks
import CallableKinds.Proofs.Isolation
import CallableKinds.Proofs.Ownership
import CallableKinds.Proofs.Memory
import CallableKinds.Proofs.Joining
import CallableKinds.Proofs.Quoting
import CallableKinds.Proofs.Headers
import CallableKinds.Proofs.Findings
import CallableKinds.Proofs.Stubs
import CallableKinds.Proofs.Consistency
import CallableKinds.Proofs.Addresses
import CallableKinds.Proofs.Circles
import CallableKinds.Proofs.Purity
import CallableKinds.Proofs.Alike
import CallableKinds.Proofs.Caches
import CallableKinds.Proofs.Uses
import CallableKinds.Proofs.Reading
import CallableKinds.Proofs.Comments
import CallableKinds.Proofs.Excerpts
import CallableKinds.Proofs.Contexts
import CallableKinds.Proofs.Nested
import CallableKinds.Proofs.Reisolation
import CallableKinds.Proofs.Arrows
import CallableKinds.Proofs.Renaming
import CallableKinds.Proofs.LogicalLines
import CallableKinds.Proofs.Decorators
import CallableKinds.Proofs.Splitting
import CallableKinds.Proofs.FunctionStubs
import CallableKinds.Proofs.HeaderNames
import CallableKinds.Proofs.Stretches
import CallableKinds.Proofs.Listings
import CallableKinds.Proofs.Parts
import CallableKinds.Proofs.Trivia
import CallableKinds.Proofs.LambdaHeaders
import CallableKinds.Proofs.CollapsedScan
import CallableKinds.Proofs.Updates
import CallableKinds.Proofs.ClassStubs
import CallableKinds.Proofs.Following
import CallableKinds.Proofs.Calls
import CallableKinds.Proofs.BoundMethods
import CallableKinds.Proofs.Indentation
import CallableKinds.Proofs.Margins
import CallableKinds.Proofs.Ancestry
import CallableKinds.Proofs.Attempts
import CallableKinds.Proofs.Violations
import CallableKinds.Proofs.Spans
import CallableKinds.Proofs.Kinds
