import LuaLint.Diagnostic.Workbench
import LuaLint.Main
import LuaLint.Proofs.Command.Arguments
import LuaLint.Proofs.Command.Logging
import LuaLint.Proofs.Diagnostic.Workbench
import LuaLint.Proofs.Files.Firsts
import LuaLint.Proofs.Files.Names
import LuaLint.Proofs.Files.Shadowing
import LuaLint.Proofs.Files.Spelling
import LuaLint.Proofs.Linter.Disabling
import LuaLint.Proofs.Linter.Failing
import LuaLint.Proofs.Linter.Positions
import LuaLint.Proofs.Linter.Recolouring
import LuaLint.Proofs.Linter.Rendering
import LuaLint.Proofs.Linter.Uncommented
import LuaLint.Proofs.Lua.Dashes
import LuaLint.Proofs.Lua.FreeText
import LuaLint.Proofs.Rule.Building
import LuaLint.Proofs.Rule.Options
import LuaLint.Proofs.Rule.Remarks
import LuaLint.Proofs.Settings.Loading
import LuaLint.Proofs.Settings.Nearest
import LuaLint.Proofs.Settings.Relative
import LuaLint.Proofs.Settings.Resolution
import LuaLint.Proofs.Source.Insertion
import LuaLint.Proofs.Suppression.Elsewhere
import LuaLint.Proofs.Suppression.LetterCase
import LuaLint.Proofs.Suppression.LineEndings
import LuaLint.Proofs.Suppression.Named
import LuaLint.Proofs.Suppression.Places
import LuaLint.Proofs.Suppression.Several
import LuaLint.Proofs.Suppression.Written
import LuaLint.Proofs.Tree.Fault
