import Cattery.Asset.Session
import Cattery.Main
import Cattery.World.Simulation
import Cattery.Proofs.Search
import Cattery.Proofs.Trim
import Cattery.Proofs.Attributes
import Cattery.Proofs.LowerCase
import Cattery.Proofs.Scan
import Cattery.Proofs.Directives
import Cattery.Proofs.RoundTrip
import Cattery.Proofs.Lines
import Cattery.Proofs.Marks
import Cattery.Proofs.Trails
import Cattery.Proofs.JsonText
import Cattery.Proofs.JsonRead
import Cattery.Proofs.VisionSettings
import Cattery.Proofs.Kept
import Cattery.Proofs.Transcript
import Cattery.Proofs.Streams
import Cattery.Proofs.Utf8
import Cattery.Proofs.Compile
import Cattery.Proofs.ObjectPath
import Cattery.Proofs.Outcomes
import Cattery.Proofs.StepForms
import Cattery.Proofs.Hosting
import Cattery.Proofs.Interference
import Cattery.Proofs.JsonGrammar
import Cattery.Proofs.JsonMeaning
import Cattery.Proofs.Runs
import Cattery.Proofs.Replies
import Cattery.Proofs.Accounts
import Cattery.Proofs.Admission
import Cattery.Proofs.Verdicts
import Cattery.Proofs.Envelopes
import Cattery.Proofs.Keepers
import Cattery.Proofs.Persistence
import Cattery.Proofs.NormalForm
import Cattery.Proofs.Divisions
import Cattery.Proofs.Supersession
import Cattery.Proofs.Channels
import Cattery.Proofs.Writings
import Cattery.Proofs.CanonicalText
import Cattery.Proofs.Refusals
import Cattery.Proofs.Contributions
import Cattery.Proofs.EmbeddedImages
import Cattery.Proofs.Directories
import Cattery.Proofs.Buckets
import Cattery.Proofs.Slugs
import Cattery.Proofs.ErrorTexts
import Cattery.Proofs.SentHeaders
import Cattery.Proofs.SettingsForms
