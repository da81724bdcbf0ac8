import Gatekeeper.Fault

/-!
# Packages

Packages and modules go by dotted names. A package has a folder, which lies in the folder of the
package above it; a module has none. Known are those of the library itself and those that come with
every installation.
-/

namespace Gatekeeper.Package

/-- The names that lead from the top to a folder. -/
abbrev Path := List Text

def pathOf (name : Text) : Path := Text.segments '.' name

def wordsOf (lines : List String) : List Text :=
  lines.flatMap fun line => Text.segments ' ' line.toList

def ownPackages : List Text :=
  wordsOf ["pyguard pyguard.filter pyguard.redaction pyguard.redaction.tests pyguard.tests"]

def ownModules : List Text :=
  wordsOf
    ["pyguard.__main__ pyguard.cli pyguard.error",
     "pyguard.filter.api pyguard.filter.config pyguard.filter.pattern pyguard.filter.proxy",
     "pyguard.filter.sanctioned pyguard.filter.state pyguard.filter.stream",
     "pyguard.redaction.argument pyguard.redaction.defaults pyguard.redaction.dictionary",
     "pyguard.redaction.logging pyguard.redaction.regex pyguard.redaction.strategy"]

def standardPackages : List Text :=
  wordsOf
    ["asyncio collections concurrent ctypes curses dbm email encodings ensurepip html http",
     "idlelib importlib json lib2to3 logging multiprocessing pydoc_data re sqlite3 tkinter",
     "tomllib turtledemo unittest urllib venv wsgiref xml xmlrpc zoneinfo concurrent.futures",
     "ctypes.macholib email.mime importlib.metadata importlib.resources lib2to3.fixes",
     "lib2to3.pgen2 multiprocessing.dummy xml.dom xml.etree xml.parsers xml.sax"]

def standardModules : List Text :=
  wordsOf
    ["abc aifc antigravity argparse array ast asynchat asyncore atexit audioop base64 bdb",
     "binascii bisect builtins bz2 cProfile calendar cgi cgitb chunk cmath cmd code codecs",
     "codeop colorsys compileall configparser contextlib contextvars copy copyreg crypt csv",
     "dataclasses datetime decimal difflib dis distutils doctest enum errno faulthandler fcntl",
     "filecmp fileinput fnmatch fractions ftplib functools gc genericpath getopt getpass gettext",
     "glob graphlib grp gzip hashlib heapq hmac imaplib imghdr imp inspect io ipaddress",
     "itertools keyword linecache locale lzma mailbox mailcap marshal math mimetypes mmap",
     "modulefinder netrc nntplib ntpath nturl2path numbers opcode operator optparse os",
     "ossaudiodev pathlib pdb pickle pickletools pipes pkgutil platform plistlib poplib posix",
     "posixpath pprint profile pstats pty pwd py_compile pyclbr pydoc pyexpat queue quopri",
     "random readline reprlib resource rlcompleter runpy sched secrets select selectors shelve",
     "shlex shutil signal site smtpd smtplib sndhdr socket socketserver spwd sre_compile",
     "sre_constants sre_parse ssl stat statistics string stringprep struct subprocess sunau",
     "symtable sys sysconfig syslog tabnanny tarfile telnetlib tempfile termios textwrap this",
     "threading time timeit token tokenize trace traceback tracemalloc tty turtle types typing",
     "unicodedata uu uuid warnings wave weakref webbrowser xdrlib zipapp zipfile zipimport zlib",
     "os.path"]

def folders : List Path := (ownPackages ++ standardPackages).map pathOf

theorem pathOf_mem_folders {name : Text} (h : name ∈ ownPackages) : pathOf name ∈ folders :=
  List.mem_map_of_mem (List.mem_append_left _ h)

/-- No folder has a name with a dot in it on its way. -/
theorem not_mem_folders {path : Path} {name : Text} (hname : name ∈ path) (hdot : '.' ∈ name) :
    path ∉ folders := by
  intro h
  obtain ⟨package, _, rfl⟩ := List.mem_map.1 h
  exact Text.not_mem_of_mem_segments hname hdot

/-- The folder of a package, by its name. A name that starts with a dot has nothing to be relative
to, and so names no package. -/
def folder (name : Text) : Except ReadFailure Path :=
  if folders.contains (pathOf name) then .ok (pathOf name)
  else if name.isEmpty then .error .invalidValue
  else if ['.'].isPrefixOf name || (ownModules ++ standardModules).contains name then
    .error .notPackage
  else .error .packageNotFound

theorem folder_eq {name : Text} (h : pathOf name ∈ folders) : folder name = .ok (pathOf name) :=
  if_pos (List.contains_iff_mem.2 h)

end Gatekeeper.Package
