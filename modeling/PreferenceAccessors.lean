import PreferenceAccessors.Main
import PreferenceAccessors.Proofs.FloatRoundTrip
import PreferenceAccessors.Proofs.History
import PreferenceAccessors.Proofs.Landing
import PreferenceAccessors.Proofs.Pass
import PreferenceAccessors.Proofs.Routed
import PreferenceAccessors.Proofs.Java.GeneratedCode
import PreferenceAccessors.Proofs.Java.Member
import PreferenceAccessors.Proofs.ConfigReading
import PreferenceAccessors.Proofs.DirectoryPass
import PreferenceAccessors.Proofs.Reordering
import PreferenceAccessors.Proofs.Safety
import PreferenceAccessors.Proofs.ConfigLine
import PreferenceAccessors.Proofs.Containment
import PreferenceAccessors.Proofs.FloatReading
import PreferenceAccessors.Proofs.FloatNarrowing
import PreferenceAccessors.Proofs.Java.Comment
import PreferenceAccessors.Proofs.Validation
import PreferenceAccessors.Proofs.ShortestLiteral
import PreferenceAccessors.Proofs.Precedence
import PreferenceAccessors.Proofs.Isolation
import PreferenceAccessors.Proofs.Absence
import PreferenceAccessors.Proofs.LineEnding
import PreferenceAccessors.Proofs.Registry
import PreferenceAccessors.Proofs.TableHistory
