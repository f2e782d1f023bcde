import PodCompiler.Main
import PodCompiler.Specification.Tree
import PodCompiler.Proofs.MountPairing
import PodCompiler.Proofs.Placement
import PodCompiler.Proofs.Pruning
import PodCompiler.Proofs.Validation
import PodCompiler.Proofs.Locality
import PodCompiler.Proofs.Payload
import PodCompiler.Proofs.StreamOrder
import PodCompiler.Proofs.ReadBack
import PodCompiler.Proofs.ServiceNames
import PodCompiler.Proofs.VolumeNames
import PodCompiler.Proofs.FilePlacement
import PodCompiler.Proofs.MountPaths
import PodCompiler.Proofs.LoggerHistory
import PodCompiler.Proofs.SpecificationDocuments
import PodCompiler.Proofs.ScratchPaths
import PodCompiler.Proofs.ViolationOrder
import PodCompiler.Proofs.ByteQuantities
import PodCompiler.Tree.Json
import PodCompiler.Proofs.JsonReading
import PodCompiler.Proofs.RegistryCredentials
import PodCompiler.Proofs.MilliQuantities
import PodCompiler.Proofs.Environment
import PodCompiler.Proofs.ControlVariable
import PodCompiler.Proofs.Accounting
import PodCompiler.Proofs.WordArithmetic
