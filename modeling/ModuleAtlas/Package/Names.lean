import ModuleAtlas.Path

/-!
# Names of packages

Which package an import means.
-/

namespace ModuleAtlas.Package

def platformModules : List String :=
  ["assert", "async_hooks", "buffer", "child_process", "cluster", "console", "constants", "crypto",
    "dgram", "diagnostics_channel", "dns", "domain", "events", "fs", "http", "http2", "https",
    "inspector", "module", "net", "os", "path", "perf_hooks", "process", "punycode", "querystring",
    "readline", "repl", "stream", "string_decoder", "sys", "timers", "tls", "trace_events", "tty",
    "url", "util", "v8", "vm", "wasi", "worker_threads", "zlib"]

/-- The package that an import means: its first component, or its first two when it begins with an
at sign. Paths mean none. -/
def nameOf? (source : String) : Option String :=
  if Text.beginsWith source "." || Text.beginsWith source "/" then none
  else
    let pieces := Path.pieces source
    if Text.beginsWith source "@" then
      match pieces with
      | scope :: name :: _ => some (scope ++ "/" ++ name)
      | _ => none
    else
      match pieces with
      | [] => none
      | first :: _ => if first == "" then none else some first

/-- Whether an import means a module of the platform. -/
def isPlatform (source : String) : Bool :=
  Text.beginsWith source "node:" || platformModules.contains (((Path.pieces source).head?).getD "")

end ModuleAtlas.Package
