import FlutterMend.Text

/-!
# Help texts
-/

namespace FlutterMend.CommandLine

def helpText : String :=
  unlines [
    "Rewrite deprecated withOpacity and Key? key usages in place",
    "",
    "Usage: migrator [OPTIONS] [ROOT]",
    "",
    "Arguments:",
    "  [ROOT]  Root directory to scan recursively [default: lib]",
    "",
    "Options:",
    "      --ext <EXTENSION>  Extension of files to rewrite (without the dot) [default: dart]",
    "      --dry-run          Report files that would change without writing them",
    "  -h, --help             Print help",
    "  -V, --version          Print version"]

def versionText : String := unlines ["migrator 0.1.0"]

end FlutterMend.CommandLine
