import ScriptDebugger.Debugger.Playground
import ScriptDebugger.Main
import ScriptDebugger.Proofs.Debugger.Cleared
import ScriptDebugger.Proofs.Debugger.Consistent
import ScriptDebugger.Proofs.Debugger.Direct
import ScriptDebugger.Proofs.Debugger.Frames
import ScriptDebugger.Proofs.Debugger.FunctionValue
import ScriptDebugger.Proofs.Debugger.Globals
import ScriptDebugger.Proofs.Debugger.History
import ScriptDebugger.Proofs.Debugger.Locate
import ScriptDebugger.Proofs.Debugger.OwnMarkers
import ScriptDebugger.Proofs.Debugger.Translated
import ScriptDebugger.Proofs.Machine.BlockScopes
import ScriptDebugger.Proofs.Machine.Callbacks
import ScriptDebugger.Proofs.Machine.ChainWalk
import ScriptDebugger.Proofs.Machine.Constants
import ScriptDebugger.Proofs.Machine.DepthLimit
import ScriptDebugger.Proofs.Source.Lines
import ScriptDebugger.Proofs.Source.Positions
import ScriptDebugger.Proofs.Syntax.Atoms
import ScriptDebugger.Proofs.Syntax.BalancedSpans
import ScriptDebugger.Proofs.Syntax.BlankInserted
import ScriptDebugger.Proofs.Syntax.Depth
import ScriptDebugger.Proofs.Syntax.Expression
import ScriptDebugger.Proofs.Syntax.LineBreaks
import ScriptDebugger.Proofs.Syntax.Located
import ScriptDebugger.Proofs.Syntax.Printing
import ScriptDebugger.Proofs.Syntax.Progress
import ScriptDebugger.Proofs.Syntax.PropertyWords
import ScriptDebugger.Proofs.Syntax.Respanned
import ScriptDebugger.Proofs.Syntax.RespannedGrammar
import ScriptDebugger.Proofs.Syntax.Spans
import ScriptDebugger.Proofs.Syntax.Traversal
import ScriptDebugger.Proofs.Token.ByteScan
import ScriptDebugger.Proofs.Token.Inserted
import ScriptDebugger.Proofs.Token.Quoted
import ScriptDebugger.Proofs.Value.NumberTexts
import ScriptDebugger.Proofs.Value.ScopeTree
import ScriptDebugger.Proofs.Value.Search
