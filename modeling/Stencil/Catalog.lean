import Stencil.Roster

/-!
# Catalogs of messages

A catalog has a table of messages for each locale and one locale that is active.

* `Catalog.message` — the message of a key, which is the key itself if the active locale has none;
* `Catalog.add` — messages come into the table of a locale, and a later one replaces an earlier one.
-/

namespace Stencil

/-- Messages by locale and key. -/
structure Catalog where
  /-- The locale that is active. -/
  locale : String
  /-- The table of each locale. -/
  tables : Roster (Roster String) := .empty

namespace Catalog

/-- The locale of a catalog that nobody chose one for. -/
def defaultLocale : String := "en"

/-- The message of a key in the active locale, if it has one. -/
def message? (c : Catalog) (key : String) : Option String :=
  (c.tables.get? c.locale).bind (·.get? key)

/-- The message of a key. -/
def message (c : Catalog) (key : String) : String := (c.message? key).getD key

/-- The catalog with messages added to the table of a locale. -/
def add (c : Catalog) (locale : String) (messages : List (String × String)) : Catalog :=
  { c with
    tables := c.tables.insert locale (((c.tables.get? locale).getD .empty).insertAll messages) }

/-- The catalog with another locale active. -/
def setLocale (c : Catalog) (locale : String) : Catalog := { c with locale := locale }

@[simp] theorem locale_add (c : Catalog) (locale : String) (messages : List (String × String)) :
    (c.add locale messages).locale = c.locale := rfl

@[simp] theorem locale_setLocale (c : Catalog) (locale : String) :
    (c.setLocale locale).locale = locale := rfl

@[simp] theorem tables_setLocale (c : Catalog) (locale : String) :
    (c.setLocale locale).tables = c.tables := rfl

/-- Messages of one locale leave those of the others alone. -/
theorem message?_add_of_ne {c : Catalog} {locale : String} (h : locale ≠ c.locale)
    (messages : List (String × String)) (key : String) :
    (c.add locale messages).message? key = c.message? key := by
  simp [message?, add, h]

end Catalog

end Stencil
