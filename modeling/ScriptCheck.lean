import ScriptCheck.Main
import ScriptCheck.Proofs.ClosedValidation
import ScriptCheck.Proofs.LexicalNames
import ScriptCheck.Proofs.JumpTargets
import ScriptCheck.Proofs.ScopeFrames
import ScriptCheck.Proofs.FadedVariables
import ScriptCheck.Proofs.StructTables
import ScriptCheck.Proofs.Transcripts
import ScriptCheck.Proofs.StructCopies
import ScriptCheck.Proofs.GenericCalls
import ScriptCheck.Proofs.FirstDeclarations
import ScriptCheck.Proofs.ReportOrder
import ScriptCheck.Proofs.Listings
import ScriptCheck.Proofs.DefinitionLinks
import ScriptCheck.Proofs.Warnings
import ScriptCheck.Proofs.TypedExpressions
import ScriptCheck.Proofs.RequiredArguments
import ScriptCheck.Proofs.OverflowFreedom
import ScriptCheck.Proofs.UnmentionedModules
import ScriptCheck.Proofs.ResolvedReferences
import ScriptCheck.Proofs.HintFreedom
import ScriptCheck.Proofs.MemberNames
import ScriptCheck.Proofs.OperatorTables
import ScriptCheck.Proofs.LinePositions
import ScriptCheck.Proofs.TypeTexts
