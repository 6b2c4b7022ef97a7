/-!
# The hook in front of every page

`Console.bootstrap` is the script that runs first in a page and sends what
is logged there to the surrounding window. A second copy of it does nothing.
Values that JSON cannot carry are sent as objects with a tag
(`Console.typeTag`).
-/

namespace PagePreview.Console

/-- The key of an object that stands for a value without a JSON form. -/
def typeTag : String := "@t"

/-- The lines of the hook. -/
def bootstrapLines : List String := [
  "(function () \x7b",
  "  if (window.__livepadHooked) return;",
  "  window.__livepadHooked = true;",
  "  var METHODS = [\"log\", \"info\", \"warn\", \"error\", \"debug\", \"trace\", \"table\", \"dir\",",
  "    \"assert\", \"count\", \"time\", \"timeEnd\", \"group\", \"groupCollapsed\", \"groupEnd\", \"clear\"];",
  "  var MAX_DEPTH = 6;",
  "  function encode(value, seen, depth) \x7b",
  "    if (value === undefined) return \x7b \"@t\": \"undefined\" \x7d;",
  "    if (value === null || typeof value === \"boolean\" || typeof value === \"string\") return value;",
  "    if (typeof value === \"number\") return isFinite(value) ? value : \x7b \"@t\": \"number\", v: String(value) \x7d;",
  "    if (typeof value === \"bigint\") return \x7b \"@t\": \"bigint\", v: String(value) \x7d;",
  "    if (typeof value === \"symbol\") return \x7b \"@t\": \"symbol\", v: String(value) \x7d;",
  "    if (typeof value === \"function\") return \x7b \"@t\": \"function\", v: value.name || \"anonymous\" \x7d;",
  "    if (value instanceof Error) return \x7b \"@t\": \"error\", v: String(value.stack || value) \x7d;",
  "    if (seen.indexOf(value) !== -1) return \x7b \"@t\": \"circular\" \x7d;",
  "    if (depth >= MAX_DEPTH) return \x7b \"@t\": \"object\", v: Object.prototype.toString.call(value) \x7d;",
  "    seen.push(value);",
  "    var out;",
  "    if (Array.isArray(value)) \x7b",
  "      out = value.map(function (item) \x7b return encode(item, seen, depth + 1); \x7d);",
  "    \x7d else \x7b",
  "      out = \x7b\x7d;",
  "      Object.keys(value).forEach(function (key) \x7b out[key] = encode(value[key], seen, depth + 1); \x7d);",
  "    \x7d",
  "    seen.pop();",
  "    return out;",
  "  \x7d",
  "  var target = window.parent || window;",
  "  METHODS.forEach(function (method) \x7b",
  "    var native = console[method];",
  "    console[method] = function () \x7b",
  "      var args = Array.prototype.slice.call(arguments);",
  "      try \x7b",
  "        target.postMessage([\x7b method: method, data: args.map(function (arg) \x7b return encode(arg, [], 0); \x7d) \x7d], \"*\");",
  "      \x7d catch (e) \x7b\x7d",
  "      if (typeof native === \"function\") return native.apply(console, arguments);",
  "    \x7d;",
  "  \x7d);",
  "\x7d)();"]

/-- The hook; every line ends with a line feed. -/
def bootstrap : String := String.join (bootstrapLines.map (· ++ "\n"))

end PagePreview.Console
