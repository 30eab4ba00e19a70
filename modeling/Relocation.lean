import Relocation.Project.FileNames
import Relocation.Project.Settings
import Relocation.Project.Summary
import Relocation.Proofs.Address.Arrival
import Relocation.Proofs.Address.Copies
import Relocation.Proofs.Address.Mirror
import Relocation.Proofs.Address.Output
import Relocation.Proofs.Address.Place
import Relocation.Proofs.Address.Remembered
import Relocation.Proofs.Address.RoundTrip
import Relocation.Proofs.Decision.Failing
import Relocation.Proofs.Decision.Guard
import Relocation.Proofs.Decision.Order
import Relocation.Proofs.FileTree.Projection
import Relocation.Proofs.Ledger.History
import Relocation.Proofs.Pass.Again
import Relocation.Proofs.Pass.Excluded
import Relocation.Proofs.Pass.Relocated
import Relocation.Proofs.Pass.Stopped
import Relocation.Proofs.Path.Composition
import Relocation.Proofs.Project.Settings
import Relocation.Proofs.Resolver.Answers
import Relocation.Proofs.Resolver.Inside
import Relocation.Proofs.Session.Batch
import Relocation.Proofs.Session.Warnings
import Relocation.Proofs.Specifier.Class
import Relocation.Session
import Relocation.Syntax.Printed
