import BytecodeLowering.Image.Disassembly
import BytecodeLowering.Image.Encode
import BytecodeLowering.Lower.Program
import BytecodeLowering.Proofs.Body.BoxingBridge
import BytecodeLowering.Proofs.Body.BranchTargets
import BytecodeLowering.Proofs.Body.Consumption
import BytecodeLowering.Proofs.Body.EnumValues
import BytecodeLowering.Proofs.Body.IntegerArithmetic
import BytecodeLowering.Proofs.Body.IntegerBranches
import BytecodeLowering.Proofs.Body.Performing
import BytecodeLowering.Proofs.Body.StackDiscipline
import BytecodeLowering.Proofs.Body.TrapFrames
import BytecodeLowering.Proofs.Image.Blobs
import BytecodeLowering.Proofs.Image.Delimited
import BytecodeLowering.Proofs.Image.IndexCodec
import BytecodeLowering.Proofs.Image.LineBound
import BytecodeLowering.Proofs.Image.LineRun
import BytecodeLowering.Proofs.Image.Reencoding
import BytecodeLowering.Proofs.Image.RoundTrip
import BytecodeLowering.Proofs.Image.StringPool
import BytecodeLowering.Proofs.Lower.ClassBases
import BytecodeLowering.Proofs.Lower.ClosedModule
import BytecodeLowering.Proofs.Lower.CompiledEnums
import BytecodeLowering.Proofs.Lower.ConstructorParameters
import BytecodeLowering.Proofs.Lower.Dispatch
import BytecodeLowering.Proofs.Lower.EnumStages
import BytecodeLowering.Proofs.Lower.FlatLayout
import BytecodeLowering.Proofs.Lower.FunctionSpace
import BytecodeLowering.Proofs.Lower.Gaps
import BytecodeLowering.Proofs.Lower.InitialValues
import BytecodeLowering.Proofs.Lower.Initializer
import BytecodeLowering.Proofs.Lower.ObjectStages
import BytecodeLowering.Proofs.Lower.PassOrder
import BytecodeLowering.Proofs.Lower.RegisterPlaces
import BytecodeLowering.Proofs.Lower.Retention
import BytecodeLowering.Proofs.Lower.SafeCasts
import BytecodeLowering.Proofs.Lower.SourceFiles
import BytecodeLowering.Proofs.Lower.Stages
import BytecodeLowering.Proofs.Target.EnumClasses
import BytecodeLowering.Settings.Reading
import BytecodeLowering.Target.Listing
