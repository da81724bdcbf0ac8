import Gatekeeper.Screening.Joiner

/-!
# Accepting patterns

The two patterns that the library brings along. The pattern of sanctioned classes starts from the
standing dependencies, takes further clauses behind them and always ends by rejecting the rest; the
management pattern is fixed.
-/

namespace Gatekeeper.Screening

def rejectAll : Text := ['!', '*']

/-- Classes that every sanctioned pattern accepts: core values and their constructors, query trees,
older configuration types, and security errors exchanged by older members. -/
def dependencies : List Text :=
  ["builtins.set".toList, "builtins.frozenset".toList, "builtins.bytearray".toList,
   "builtins.complex".toList, "builtins.range".toList, "builtins.slice".toList,
   "builtins.object".toList, "copyreg._reconstructor".toList, "_codecs.encode".toList,
   "collections.OrderedDict".toList, "collections.deque".toList, "collections.Counter".toList,
   "datetime.*".toList, "decimal.Decimal".toList, "fractions.Fraction".toList,
   "uuid.UUID".toList, "uuid.SafeUUID".toList, "ipaddress.*".toList, "pathlib.PurePath".toList,
   "pathlib.PurePosixPath".toList, "pathlib.PureWindowsPath".toList, "pathlib.PosixPath".toList,
   "pathlib.WindowsPath".toList, "lark.**".toList,
   "pyguard.distributed.ConfigurationSnapshot".toList,
   "pyguard.distributed.MemberIdentifier".toList, "pyguard.distributed.DiskStoreId".toList,
   "ssl.SSLError".toList, "ssl.SSLCertVerificationError".toList,
   "ssl.SSLZeroReturnError".toList, "cryptography.x509.**".toList,
   "cryptography.exceptions.InvalidSignature".toList]

/-- The open data types that the management channel exchanges. -/
def openTypes : List Text :=
  ["builtins.bool".toList, "builtins.int".toList, "builtins.float".toList,
   "builtins.complex".toList, "builtins.str".toList, "builtins.bytes".toList,
   "builtins.list".toList, "builtins.tuple".toList, "builtins.dict".toList,
   "builtins.set".toList, "builtins.frozenset".toList, "datetime.date".toList,
   "datetime.datetime".toList, "datetime.timedelta".toList, "datetime.timezone".toList,
   "decimal.Decimal".toList, "pyguard.filter.api.Status".toList]

/-- A pattern under construction that accepts the dependencies. -/
structure AcceptPattern where
  joiner : Joiner

namespace AcceptPattern

def initial : AcceptPattern := ⟨Joiner.start [';'] (some (Text.joined [';'] dependencies))⟩

def append (p : AcceptPattern) (clause : Option Text) : AcceptPattern := ⟨p.joiner.append clause⟩

/-- The pattern so far, closed by rejecting everything else. -/
def text (p : AcceptPattern) : Text :=
  ((Joiner.start [';'] (some p.joiner.text)).append (some rejectAll)).text

/-- The dependencies, then the given clauses in order, then the closing one. -/
def ofClauses (clauses : List (Option Text)) : Text := (clauses.foldl append initial).text

end AcceptPattern

def managementPattern : Text :=
  (((Joiner.start [';'] none).appendAll (openTypes.map some)).append (some rejectAll)).text

/-- A pattern that can be published or made into a screen. -/
inductive PatternSource
  | management
  | sanctioned (clauses : List (Option Text))
  deriving DecidableEq

def PatternSource.text : PatternSource → Text
  | .management => managementPattern
  | .sanctioned clauses => AcceptPattern.ofClauses clauses

end Gatekeeper.Screening
