import BeanWiring.BeanType.Declaration
import BeanWiring.Container.Runs
import BeanWiring.Context.Script
import BeanWiring.Settings.File
import BeanWiring.Proofs.Matching.Assignment
import BeanWiring.Proofs.Shape
import BeanWiring.Proofs.Converted
import BeanWiring.Proofs.Repetition
import BeanWiring.Proofs.OneAttempt
import BeanWiring.Proofs.Stability
import BeanWiring.Proofs.Access
import BeanWiring.Proofs.Singletons
import BeanWiring.Proofs.Termination
import BeanWiring.Proofs.Fallback
import BeanWiring.Proofs.Fitting
import BeanWiring.Proofs.InjectionPoints
import BeanWiring.Proofs.Wiring.Dependencies
import BeanWiring.Proofs.Wiring.AllOrNothing
import BeanWiring.Proofs.Watching.Questions
import BeanWiring.Proofs.Assignability
import BeanWiring.Proofs.EarlyStop
import BeanWiring.Proofs.ClosestMethod
import BeanWiring.Proofs.Ledger
import BeanWiring.Proofs.GivenArguments
import BeanWiring.Proofs.Failures
import BeanWiring.Proofs.Misplaced
import BeanWiring.Proofs.PointReplay
import BeanWiring.Proofs.LookupErrors
import BeanWiring.Proofs.Prospects
import BeanWiring.Proofs.Listing
import BeanWiring.Proofs.Gathering.Creations
import BeanWiring.Proofs.ByType
import BeanWiring.Proofs.Overloads
import BeanWiring.Proofs.Specificity
import BeanWiring.Proofs.Unconverted
import BeanWiring.Proofs.Conversion.Items
import BeanWiring.Proofs.Conversion.Scalars
import BeanWiring.Proofs.Placeholder.Scan
import BeanWiring.Proofs.Graph.Registrations
import BeanWiring.Proofs.Graph.Teardown
import BeanWiring.Proofs.Graph.Cycles
import BeanWiring.Proofs.Graph.Dot
import BeanWiring.Proofs.Hierarchy
import BeanWiring.Proofs.Arrays
import BeanWiring.Proofs.Capacity
import BeanWiring.Proofs.Environment
