import EntityFeatures.Span.Basic

/-!
# Containers

The annotation of Czech entities has containers: a person's name around its
first names and surnames, and a date around its day, month and year. They are
not recognised but added afterwards, each before the first of the spans that it
holds; these stay where they are.

* `P` holds first names `pf` and then surnames `ps`, at least one of each and as
  many as are linked.
* `T` holds a day `td`, a month `tm` and, if it is linked, a year `ty`; or a month
  and a year, unless a day is linked before the month.

Which containers begin at a span depends on the span before it and on those
behind it. `containersAt` says so, and `addContainers` goes through the list once.
-/

namespace EntityFeatures

/-- The last span of the longest linked run of a type that goes on from `last`, and what follows. -/
def linkedRun (type : String) (last : Span) : List Span → Span × List Span
  | [] => (last, [])
  | next :: rest =>
      if last.continuesAs type next then linkedRun type next rest else (last, next :: rest)

/-- The span from the start of the first to the end of the last of the spans that it holds. -/
def containerOf (type : String) (first last : Span) : Span :=
  ⟨first.start, last.stop - first.start, type⟩

/-- Whether a span goes on a run of the given type that the span before it belongs to. -/
def continuesRun (type : String) (previous : Option Span) (span : Span) : Bool :=
  match previous with
  | none => false
  | some before => before.touches span && before.type == type

/-- The person that begins at a span. -/
def personAt (previous : Option Span) (span : Span) (rest : List Span) : List Span :=
  if span.type == "pf" && !continuesRun "pf" previous span then
    match linkedRun "pf" span rest with
    | (_, []) => []
    | (lastFirstName, next :: behind) =>
        if lastFirstName.continuesAs "ps" next then
          [containerOf "P" span (linkedRun "ps" next behind).1]
        else []
  else []

/-- The date that begins at a day. -/
def dateAtDay (span : Span) (rest : List Span) : List Span :=
  if span.type == "td" then
    match rest with
    | [] => []
    | [month] => if span.continuesAs "tm" month then [containerOf "T" span month] else []
    | month :: year :: _ =>
        if span.continuesAs "tm" month then
          if month.continuesAs "ty" year then [containerOf "T" span year]
          else [containerOf "T" span month]
        else []
  else []

/-- The date that begins at a month. -/
def dateAtMonth (previous : Option Span) (span : Span) (rest : List Span) : List Span :=
  if span.type == "tm" && !continuesRun "td" previous span then
    match rest with
    | [] => []
    | year :: _ => if span.continuesAs "ty" year then [containerOf "T" span year] else []
  else []

/-- The containers that begin at a span, given the span before it and those behind it. -/
def containersAt (previous : Option Span) (span : Span) (rest : List Span) : List Span :=
  personAt previous span rest ++ dateAtDay span rest ++ dateAtMonth previous span rest

/-- Puts the containers before the spans at which they begin. -/
def addContainersAfter (previous : Option Span) : List Span → List Span
  | [] => []
  | span :: rest =>
      containersAt previous span rest ++ span :: addContainersAfter (some span) rest

/-- The spans with the containers that they make up. -/
def addContainers (spans : List Span) : List Span :=
  addContainersAfter none spans

end EntityFeatures
