import ScreenFlow.Main
import ScreenFlow.Proofs.Navigation
import ScreenFlow.Proofs.Review.Enumeration
import ScreenFlow.Proofs.Rewriting.Elements
import ScreenFlow.Proofs.StoredDocuments
import ScreenFlow.Proofs.InheritedData
import ScreenFlow.Proofs.Routing
import ScreenFlow.Proofs.CleanDocuments
import ScreenFlow.Proofs.Codec.Tidy
import ScreenFlow.Proofs.Flow.Tidy
import ScreenFlow.Proofs.CanonicalTexts
import ScreenFlow.Proofs.SingleElements
import ScreenFlow.Proofs.Commands
import ScreenFlow.Proofs.Review.RaisedLimits
import ScreenFlow.Proofs.Review.Produced
import ScreenFlow.Proofs.Review.WarningThresholds
import ScreenFlow.Proofs.Review.Measurements
import ScreenFlow.Proofs.Review.Truth
import ScreenFlow.Proofs.Review.OpenReports
import ScreenFlow.Proofs.ScreenIds
import ScreenFlow.Proofs.CollectedFields
import ScreenFlow.Proofs.Review.LimitTables
