import Readback.Prelude
import Readback.Value.Heap
import Readback.Encode
import Readback.LayoutCache
import Readback.Evaluation.Evaluator
import Readback.Process.Spawn
import Readback.Proofs.Classification
import Readback.Proofs.Layout
import Readback.Proofs.Inhabitant
import Readback.Proofs.RoundTrip
import Readback.Proofs.FreshName
import Readback.Proofs.Registry
import Readback.Proofs.Recording
import Readback.Proofs.Stages
import Readback.Proofs.History
import Readback.Proofs.Cache
import Readback.Proofs.NativeNames
import Readback.Proofs.Plan
import Readback.Proofs.Failure
import Readback.Proofs.Heap
import Readback.Proofs.Substitution
import Readback.Proofs.HeadReduction
import Readback.Proofs.Scoping
import Readback.Proofs.Reduction
import Readback.Proofs.Standardization
import Readback.Proofs.Conversion
import Readback.Proofs.Extension
import Readback.Proofs.Messages
import Readback.Proofs.Diagnostics
import Readback.Proofs.Components
import Readback.Proofs.Symbol
import Readback.Proofs.BuildFiles
import Readback.Proofs.Instantiation
import Readback.Proofs.Budget
import Readback.Proofs.Levels
import Readback.Proofs.HeadStability
import Readback.Proofs.ConversionBudget
import Readback.Proofs.Complaint
import Readback.Proofs.ReduceFirst
import Readback.Proofs.SharedLayouts
import Readback.Proofs.Fuel
import Readback.Proofs.NameSearch
import Readback.Proofs.NameNumber
import Readback.Proofs.SpineForm
import Readback.Proofs.PreludeTerms
import Readback.Proofs.Printing
import Readback.Proofs.ImportPaths
import Readback.Proofs.BuildInputs
import Readback.Proofs.Lifting
