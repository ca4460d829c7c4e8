import Correspondence.Jvm.Descriptor
import Correspondence.Jvm.Json
import Correspondence.Metadata.Json
import Correspondence.Navigation
import Correspondence.Outline
import Correspondence.Element.Json
import Correspondence.Fixture.Basic
import Correspondence.Fixture.Json
import Correspondence.Config.Toml
import Correspondence.Config.Json
import Correspondence.Proofs.Chain
import Correspondence.Proofs.Adequacy
import Correspondence.Proofs.Arising
import Correspondence.Proofs.Failure
import Correspondence.Proofs.Independence
import Correspondence.Proofs.RoundTrip
import Correspondence.Proofs.Ownership
import Correspondence.Proofs.Stability
import Correspondence.Proofs.Siblings
import Correspondence.Proofs.Integrity
import Correspondence.Proofs.Attribution
import Correspondence.Proofs.Sources
import Correspondence.Proofs.Positions
import Correspondence.Proofs.Counting
import Correspondence.Proofs.Committed
import Correspondence.Proofs.Recorded
import Correspondence.Proofs.Alike
import Correspondence.Proofs.Checks
import Correspondence.Proofs.DescriptorForms
import Correspondence.Proofs.Reordering
import Correspondence.Proofs.CallShape
import Correspondence.Proofs.Bounds
import Correspondence.Proofs.Shadowing
import Correspondence.Proofs.EnumStart
import Correspondence.Proofs.Duplicates
import Correspondence.Proofs.Attachment
import Correspondence.Proofs.Constructors
import Correspondence.Proofs.EnumEntries
import Correspondence.Proofs.Realization
import Correspondence.Proofs.Enclosing
import Correspondence.Proofs.TopLevel
import Correspondence.Proofs.Companion
import Correspondence.Proofs.Lists
import Correspondence.Proofs.Repeats
import Correspondence.Proofs.TypeNames
import Correspondence.Proofs.FixtureMetadata
import Correspondence.Proofs.Nesting
import Correspondence.Proofs.FixturePaths
import Correspondence.Proofs.TableRuns
