import RemoteFiles.Operation
import RemoteFiles.Template
import RemoteFiles.Text.Base64
import RemoteFiles.Text.Utf8

/-!
# Scripts

One template for each operation.  A script decodes its text arguments from base64, so that no text
of a caller is ever part of the program; numbers and flags are written as literals.  It reports by
its exit status: zero with the result on standard output, anything else with a diagnostic.

## Main definitions

* `Script.tokens` — the template of an operation.
* `Script.source` — the text of that template.
* `Params.text`, `Params.int`, `Params.flag` — values in the form a script takes them.
-/

namespace RemoteFiles

namespace Template.Params

/-- Bind a name to a text, as base64 of its bytes. -/
def text (ps : Params) (name value : String) : Params :=
  ps.bind name (Base64.encode (Utf8.encode value))

/-- Bind a name to a number, in decimal. -/
def int (ps : Params) (name : String) (value : Int) : Params := ps.bind name (toString value)

/-- Bind a name to a truth value. -/
def flag (ps : Params) (name : String) (value : Bool) : Params :=
  ps.bind name (if value then "True" else "False")

end Template.Params

namespace Script

open Template (Token)

/-- A line of a script, as it stands. -/
def line (s : String) : List Token := s.toList.map .plain ++ [.plain '\n']

/-- The line that sets a variable to the text in a hole. -/
def decoding (variableName holeName : String) : List Token :=
  (variableName ++ " = base64.b64decode('").toList.map .plain ++ [.hole holeName] ++
    line "').decode('utf-8')"

/-- The line that sets a variable to the literal in the hole of its name. -/
def setting (name : String) : List Token :=
  (name ++ " = ").toList.map .plain ++ [.hole name] ++ line ""

/-- Print the lines of a window of a file, numbered from one. -/
def read : List Token := List.flatten [
  line "",
  line "import base64",
  line "import os",
  line "import sys",
  line "",
  decoding "file_path" "file_path",
  setting "offset",
  setting "limit",
  line "",
  line "if not os.path.isfile(file_path):",
  line "    print(f\"Error: File not found: \x7bfile_path\x7d\")",
  line "    sys.exit(-1)",
  line "",
  line "if os.path.getsize(file_path) == 0:",
  line "    print('System reminder: File exists but has empty contents')",
  line "    sys.exit(0)",
  line "",
  line "with open(file_path, 'r') as f:",
  line "    lines = f.readlines()",
  line "",
  line "for i, line in enumerate(lines[offset:offset + limit]):",
  line "    print(f\"\x7boffset + i + 1:6d\x7d\\t\x7bline.rstrip(chr(10))\x7d\")"]

/-- Print a record for each entry of a directory, sorted by name. -/
def list : List Token := List.flatten [
  line "",
  line "import base64",
  line "import json",
  line "import os",
  line "",
  decoding "path" "path",
  line "",
  line "try:",
  line "    with os.scandir(path) as it:",
  line "        for entry in sorted(it, key=lambda e: e.name):",
  line "            print(json.dumps(\x7b",
  line "                'path': entry.name,",
  line "                'is_dir': entry.is_dir(follow_symlinks=False),",
  line "            \x7d))",
  line "except (FileNotFoundError, PermissionError):",
  line "    pass"]

/-- Create a file that must not exist yet. -/
def write : List Token := List.flatten [
  line "",
  line "import base64",
  line "import os",
  line "import sys",
  line "",
  decoding "file_path" "file_path",
  line "",
  line "if os.path.exists(file_path):",
  line "    print(f\"Error: File '\x7bfile_path\x7d' already exists\", file=sys.stderr)",
  line "    sys.exit(-1)",
  line "",
  line "os.makedirs(os.path.dirname(file_path) or '.', exist_ok=True)",
  line "",
  decoding "content" "content",
  line "with open(file_path, 'w') as f:",
  line "    f.write(content)"]

/-- Replace one text by another, everywhere or at its only occurrence. -/
def edit : List Token := List.flatten [
  line "",
  line "import base64",
  line "import sys",
  line "",
  decoding "file_path" "file_path",
  decoding "old" "old",
  decoding "new" "new",
  setting "replace_all",
  line "",
  line "with open(file_path, 'r') as f:",
  line "    text = f.read()",
  line "",
  line "count = text.count(old)",
  line "if count == 0:",
  line "    print(f\"Error: String not found in file: '\x7bold\x7d'\")",
  line "    sys.exit(-1)",
  line "if count > 1 and not replace_all:",
  line ("    print(f\"Error: String '\x7bold\x7d' appears multiple times. " ++
    "Use replace_all=True to replace all occurrences.\")"),
  line "    sys.exit(-1)",
  line "",
  line "result = text.replace(old, new) if replace_all else text.replace(old, new, 1)",
  line "with open(file_path, 'w') as f:",
  line "    f.write(result)",
  line "",
  line "print(count)"]

/-- Print a record for each line that holds a text. -/
def grep : List Token := List.flatten [
  line "",
  line "import base64",
  line "import json",
  line "import subprocess",
  line "import sys",
  line "",
  decoding "pattern" "pattern",
  decoding "path" "path",
  decoding "glob_pattern" "glob",
  line "",
  line "cmd = ['grep', '-rHnF']",
  line "if glob_pattern:",
  line "    cmd.extend(['--include', glob_pattern])",
  line "cmd.extend(['-e', pattern, path or '.'])",
  line "",
  line "try:",
  line "    result = subprocess.run(cmd, capture_output=True, text=True, check=False)",
  line "",
  line "    # 1 means no lines matched",
  line "    if result.returncode > 1:",
  line "        print(f\"Grep error: \x7bresult.stderr\x7d\", file=sys.stderr)",
  line "        sys.exit(result.returncode)",
  line "",
  line "    for line in result.stdout.strip().splitlines():",
  line "        parts = line.split(':', 2)",
  line "        if len(parts) < 3:",
  line "            continue",
  line "        try:",
  line "            line_num = int(parts[1])",
  line "        except ValueError:",
  line "            continue",
  line ("        print(json.dumps(\x7b'Path': parts[0], 'Line': line_num, " ++
    "'Content': parts[2]\x7d))"),
  line "except Exception as e:",
  line "    print(f\"Error executing grep script: \x7be\x7d\", file=sys.stderr)",
  line "    sys.exit(1)"]

/-- Print a record for each path that matches a pattern. -/
def glob : List Token := List.flatten [
  line "",
  line "import base64",
  line "import glob",
  line "import json",
  line "import os",
  line "",
  decoding "path" "path",
  decoding "pattern" "pattern",
  line "",
  line "os.chdir(path)",
  line "for m in sorted(glob.glob(pattern, recursive=True)):",
  line "    st = os.stat(m)",
  line "    print(json.dumps(\x7b",
  line "        'path': m,",
  line "        'size': st.st_size,",
  line "        'mtime': st.st_mtime,",
  line "        'is_dir': os.path.isdir(m),",
  line "    \x7d))"]

/-- Run a shell command and print its output. -/
def execute : List Token := List.flatten [
  line "",
  line "import base64",
  line "import subprocess",
  line "import sys",
  line "",
  decoding "command" "command",
  line "",
  line "try:",
  line "    result = subprocess.run(command, shell=True, capture_output=True, text=True, check=False)",
  line "    if result.stderr:",
  line "        print(f\"Error executing command: \x7bresult.stderr\x7d\", file=sys.stderr)",
  line "        sys.exit(result.returncode if result.returncode != 0 else 1)",
  line "    print(result.stdout, end='')",
  line "except Exception as e:",
  line "    print(f\"Error executing command script: \x7be\x7d\", file=sys.stderr)",
  line "    sys.exit(1)"]

/-- The template of an operation. -/
def tokens : Operation → List Token
  | .list => list
  | .read => read
  | .write => write
  | .edit => edit
  | .grep => grep
  | .glob => glob
  | .execute => execute

/-- The text of an operation's template. -/
def source (op : Operation) : String := String.ofList (Template.sourceOf (tokens op))

end Script
end RemoteFiles
