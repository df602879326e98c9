import ApiSurface.Extraction.Conventions
import ApiSurface.Text.Name

/-!
This module contains what a Python class says about its place in a hierarchy: the well-known base classes,
the builtin exceptions, and the modules of the standard library.
-/

namespace ApiSurface.Python

open Text

/--
Bases that make a class an enumeration.
-/
def enumBases : List String :=
  ["Enum", "IntEnum", "StrEnum", "Flag", "IntFlag"]

/--
Bases that make a class a record.
-/
def recordBases : List String :=
  ["NamedTuple", "TypedDict"]

/--
Parents that count as interfaces when they come from outside the tree.
-/
def interfaceParents : List String :=
  ["Protocol", "ABC", "Generic", "Iterable", "Iterator", "Mapping", "MutableMapping", "Sequence",
   "MutableSequence", "Collection", "Container", "Callable", "Awaitable", "AsyncIterator", "AsyncIterable",
   "ContextManager", "AsyncContextManager", "Hashable", "Sized"]

/--
The builtin exception classes.
-/
def builtinExceptions : List String :=
  ["BaseException", "BaseExceptionGroup", "Exception", "ExceptionGroup", "ArithmeticError",
   "AssertionError", "AttributeError", "BufferError", "EOFError", "FloatingPointError", "GeneratorExit",
   "ImportError", "ModuleNotFoundError", "IndexError", "KeyError", "KeyboardInterrupt", "LookupError",
   "MemoryError", "NameError", "NotImplementedError", "OSError", "EnvironmentError", "IOError",
   "BlockingIOError", "ChildProcessError", "ConnectionError", "BrokenPipeError", "ConnectionAbortedError",
   "ConnectionRefusedError", "ConnectionResetError", "FileExistsError", "FileNotFoundError",
   "InterruptedError", "IsADirectoryError", "NotADirectoryError", "PermissionError", "ProcessLookupError",
   "TimeoutError", "OverflowError", "RecursionError", "ReferenceError", "RuntimeError",
   "StopAsyncIteration", "StopIteration", "SyntaxError", "IndentationError", "TabError", "SystemError",
   "SystemExit", "TypeError", "UnboundLocalError", "UnicodeError", "UnicodeDecodeError",
   "UnicodeEncodeError", "UnicodeTranslateError", "ValueError", "ZeroDivisionError", "Warning",
   "BytesWarning", "DeprecationWarning", "FutureWarning", "ImportWarning", "PendingDeprecationWarning",
   "ResourceWarning", "RuntimeWarning", "SyntaxWarning", "UnicodeWarning", "UserWarning"]

/--
The methods behind indexing.
-/
def indexerMethods : List String :=
  ["__getitem__", "__setitem__", "__delitem__"]

/--
The methods behind operators.
-/
def operatorMethods : List String :=
  ["__add__", "__sub__", "__mul__", "__matmul__", "__truediv__", "__floordiv__", "__mod__", "__pow__",
   "__and__", "__or__", "__xor__", "__lshift__", "__rshift__", "__radd__", "__rsub__", "__rmul__",
   "__rtruediv__", "__iadd__", "__isub__", "__imul__", "__eq__", "__ne__", "__lt__", "__le__", "__gt__",
   "__ge__", "__neg__", "__pos__", "__invert__", "__contains__"]

/--
The root modules of the standard library.
-/
def stdlibModules : List String :=
  ["__future__", "abc", "argparse", "array", "ast", "asyncio", "base64", "bisect", "builtins", "bz2",
   "calendar", "cmath", "codecs", "collections", "colorsys", "concurrent", "configparser", "contextlib",
   "contextvars", "copy", "csv", "ctypes", "dataclasses", "datetime", "decimal", "difflib", "dis", "email",
   "enum", "errno", "fnmatch", "fractions", "functools", "gc", "getpass", "gettext", "glob", "gzip",
   "hashlib", "heapq", "hmac", "html", "http", "imaplib", "importlib", "inspect", "io", "ipaddress",
   "itertools", "json", "keyword", "linecache", "locale", "logging", "lzma", "mailbox", "math",
   "mimetypes", "mmap", "multiprocessing", "numbers", "operator", "os", "pathlib", "pickle", "platform",
   "plistlib", "pprint", "queue", "random", "re", "reprlib", "sched", "secrets", "select", "selectors",
   "shelve", "shlex", "shutil", "signal", "site", "smtplib", "socket", "socketserver", "sqlite3", "ssl",
   "stat", "statistics", "string", "struct", "subprocess", "sys", "sysconfig", "tarfile", "tempfile",
   "textwrap", "threading", "time", "timeit", "tkinter", "token", "tokenize", "tomllib", "traceback",
   "types", "typing", "unicodedata", "unittest", "urllib", "uuid", "warnings", "weakref", "xml", "zipfile",
   "zlib", "zoneinfo"]

/--
The name of a builtin, with or without its module.
-/
def builtinName (name : String) : String :=
  if name.startsWith "builtins." then (name.drop 9).toString else name

/--
How Python writes its type hierarchy.
-/
def conventions : Conventions where
  parentsAreExplicit := false
  externalParentIsInterface := fun parent => interfaceParents.contains (bareName parent)
  isErrorRoot := fun name => builtinExceptions.contains (builtinName name)
  isErrorType := fun _ => false
  isStdlib := fun package => stdlibModules.contains (firstSegment package)

end ApiSurface.Python
