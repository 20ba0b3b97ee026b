import RdfEntailment.Assignment
import RdfEntailment.Catalog
import RdfEntailment.Chaining
import RdfEntailment.Diagnostics
import RdfEntailment.History
import RdfEntailment.Session
import RdfEntailment.Proofs.Ground
import RdfEntailment.Proofs.Ranking
import RdfEntailment.Proofs.Pairing
import RdfEntailment.Proofs.Instances
import RdfEntailment.Proofs.Commutation
import RdfEntailment.Proofs.Simulation
import RdfEntailment.Proofs.Congruence
import RdfEntailment.Proofs.Flavors
import RdfEntailment.Proofs.Saturation
import RdfEntailment.Proofs.Confluence
import RdfEntailment.Proofs.Provenance
import RdfEntailment.Proofs.Termination
import RdfEntailment.Proofs.MissingNames
import RdfEntailment.Proofs.Determination
import RdfEntailment.Proofs.EntailmentPatterns
import RdfEntailment.Proofs.TransitiveClosure
import RdfEntailment.Proofs.Renaming
import RdfEntailment.Proofs.Opacity
import RdfEntailment.Proofs.Join
import RdfEntailment.Proofs.Composition
import RdfEntailment.Proofs.Specialization
import RdfEntailment.Proofs.DeclarationOrder
import RdfEntailment.Proofs.Templates
import RdfEntailment.Proofs.SlotFaults
import RdfEntailment.Proofs.Conclusions
import RdfEntailment.Proofs.ErrorClasses
import RdfEntailment.Proofs.Record
import RdfEntailment.Proofs.Building
import RdfEntailment.Proofs.Extension
import RdfEntailment.Proofs.LatestWrite
import RdfEntailment.Proofs.Merging
import RdfEntailment.Proofs.Recognition
import RdfEntailment.Proofs.Generality
import RdfEntailment.Proofs.Sessions
