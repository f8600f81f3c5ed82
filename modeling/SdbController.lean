import SdbController.Cluster.Authentication
import SdbController.Cluster.Phases
import SdbController.Cluster.Availability
import SdbController.Database.Reconcile
import SdbController.Provisioning
import SdbController.Database.Conduct
import SdbController.User.Conduct
import SdbController.Transport
import SdbController.User.Publication
import SdbController.Credentials
import SdbController.Interaction.Rounds
import SdbController.Database.Recovery
import SdbController.Cluster.Progress
import SdbController.Cluster.Recovery
import SdbController.Target
import SdbController.Addressing
import SdbController.Lexing.Lexer
import SdbController.Lexing.Literal
import SdbController.Lexing.Doubling
import SdbController.Lexing.Template
import SdbController.Injection
import SdbController.Decoding
import SdbController.Login
import SdbController.Generation
import SdbController.Cluster.Cleanup
import SdbController.Cluster.Removal
import SdbController.Cluster.Convergence
import SdbController.Json.Document
import SdbController.Json.Merge
import SdbController.Cluster.RootSecret
import SdbController.Adoption
import SdbController.Reading
import SdbController.StatusMessage
import SdbController.Cluster.Validity
import SdbController.Rewriting
import SdbController.Fleet
import SdbController.Interaction.Custody
import SdbController.Finalizers
import SdbController.Crdgen
import SdbController.Documents
import SdbController.Footprint
import SdbController.Json.Validation
import SdbController.Admission
import SdbController.User.Recovery
import SdbController.Interaction.Gate
import SdbController.Kubernetes.Rbac
import SdbController.Permissions
import SdbController.Interaction.Queue
import SdbController.Requeue
