import SqlService.Dialect

/-!
# Catalogue queries

What each dialect asks its catalogue: the base tables of a database, whether a table exists, and
one row per column of a table, under the same field names in every dialect.  The parameters are
`@database` and `@table`.
-/

namespace SqlService.Dialect

/-- Lists the base tables of the database. -/
def tablesQuery : Dialect → String
  | mysql =>
    " ".intercalate [
      "SELECT TABLE_NAME AS name",
      "FROM information_schema.TABLES",
      "WHERE TABLE_SCHEMA = @database AND TABLE_TYPE = 'BASE TABLE'",
      "ORDER BY TABLE_NAME"]
  | postgres =>
    " ".intercalate [
      "SELECT table_name::text AS name",
      "FROM information_schema.tables",
      "WHERE table_catalog = @database AND table_schema = current_schema()",
      "AND table_type = 'BASE TABLE'",
      "ORDER BY table_name"]
  | sqlite =>
    " ".intercalate [
      "SELECT name",
      "FROM sqlite_master",
      "WHERE type = 'table' AND name NOT LIKE 'sqlite_%'",
      "ORDER BY name"]

/-- Counts the tables of the name, so that the answer is positive when the table exists. -/
def existsQuery : Dialect → String
  | mysql =>
    " ".intercalate [
      "SELECT COUNT(*)",
      "FROM information_schema.TABLES",
      "WHERE TABLE_SCHEMA = @database AND TABLE_NAME = @table"]
  | postgres =>
    " ".intercalate [
      "SELECT COUNT(*)",
      "FROM information_schema.tables",
      "WHERE table_catalog = @database AND table_schema = current_schema()",
      "AND table_name = @table"]
  | sqlite =>
    " ".intercalate [
      "SELECT COUNT(*)",
      "FROM sqlite_master",
      "WHERE type = 'table' AND name = @table"]

/-- Answers with one row per column of the table. -/
def columnsQuery : Dialect → String
  | mysql =>
    " ".intercalate [
      "SELECT c.COLUMN_NAME AS name, c.ORDINAL_POSITION AS ordinal,",
      "c.COLUMN_TYPE AS column_type, c.DATA_TYPE AS data_type,",
      "IFNULL(c.CHARACTER_MAXIMUM_LENGTH, 0) AS length, c.COLUMN_DEFAULT AS default_value,",
      "c.COLUMN_COMMENT AS comment, (c.EXTRA LIKE '%auto_increment%') AS is_identity,",
      "(c.IS_NULLABLE = 'YES') AS is_nullable, (pk.CONSTRAINT_NAME IS NOT NULL) AS is_primary,",
      "(fk.CONSTRAINT_NAME IS NOT NULL) AS is_foreign, fk.CONSTRAINT_NAME AS foreign_name,",
      "fk.REFERENCED_TABLE_NAME AS referenced_table,",
      "fk.REFERENCED_COLUMN_NAME AS referenced_column",
      "FROM information_schema.COLUMNS c",
      "LEFT JOIN information_schema.KEY_COLUMN_USAGE pk ON pk.TABLE_SCHEMA = c.TABLE_SCHEMA",
      "AND pk.TABLE_NAME = c.TABLE_NAME AND pk.COLUMN_NAME = c.COLUMN_NAME",
      "AND pk.CONSTRAINT_NAME = 'PRIMARY'",
      "LEFT JOIN information_schema.KEY_COLUMN_USAGE fk ON fk.TABLE_SCHEMA = c.TABLE_SCHEMA",
      "AND fk.TABLE_NAME = c.TABLE_NAME AND fk.COLUMN_NAME = c.COLUMN_NAME",
      "AND fk.REFERENCED_TABLE_NAME IS NOT NULL",
      "WHERE c.TABLE_SCHEMA = @database AND c.TABLE_NAME = @table",
      "ORDER BY c.ORDINAL_POSITION"]
  | postgres =>
    " ".intercalate [
      "SELECT c.column_name::text AS name, c.ordinal_position::int AS ordinal,",
      "c.udt_name::text AS column_type, c.data_type::text AS data_type,",
      "COALESCE(c.character_maximum_length, 0)::int AS length,",
      "c.column_default::text AS default_value, COALESCE(d.description, '')::text AS comment,",
      "(c.is_identity = 'YES' OR COALESCE(c.column_default, '') LIKE 'nextval(%')",
      "AS is_identity, (c.is_nullable = 'YES') AS is_nullable,",
      "(pk.constraint_name IS NOT NULL) AS is_primary,",
      "(fk.constraint_name IS NOT NULL) AS is_foreign, fk.constraint_name::text AS foreign_name,",
      "fk.referenced_table::text AS referenced_table,",
      "fk.referenced_column::text AS referenced_column",
      "FROM information_schema.columns c",
      "LEFT JOIN (SELECT kcu.table_schema, kcu.table_name, kcu.column_name, tc.constraint_name",
      "FROM information_schema.table_constraints tc",
      "JOIN information_schema.key_column_usage kcu ON kcu.constraint_name = tc.constraint_name",
      "AND kcu.table_schema = tc.table_schema",
      "WHERE tc.constraint_type = 'PRIMARY KEY') pk ON pk.table_schema = c.table_schema",
      "AND pk.table_name = c.table_name AND pk.column_name = c.column_name",
      "LEFT JOIN (SELECT kcu.table_schema, kcu.table_name, kcu.column_name, tc.constraint_name,",
      "ccu.table_name AS referenced_table, ccu.column_name AS referenced_column",
      "FROM information_schema.table_constraints tc",
      "JOIN information_schema.key_column_usage kcu ON kcu.constraint_name = tc.constraint_name",
      "AND kcu.table_schema = tc.table_schema",
      "JOIN information_schema.constraint_column_usage ccu",
      "ON ccu.constraint_name = tc.constraint_name AND ccu.table_schema = tc.table_schema",
      "WHERE tc.constraint_type = 'FOREIGN KEY') fk ON fk.table_schema = c.table_schema",
      "AND fk.table_name = c.table_name AND fk.column_name = c.column_name",
      "LEFT JOIN pg_catalog.pg_statio_all_tables st ON st.schemaname = c.table_schema",
      "AND st.relname = c.table_name",
      "LEFT JOIN pg_catalog.pg_description d ON d.objoid = st.relid",
      "AND d.objsubid = c.ordinal_position",
      "WHERE c.table_catalog = @database AND c.table_schema = current_schema()",
      "AND c.table_name = @table",
      "ORDER BY c.ordinal_position"]
  | sqlite =>
    " ".intercalate [
      "SELECT p.name AS name, p.cid + 1 AS ordinal, lower(p.type) AS column_type,",
      "lower(CASE WHEN instr(p.type, '(') > 0",
      "THEN substr(p.type, 1, instr(p.type, '(') - 1) ELSE p.type END) AS data_type,",
      "CASE WHEN instr(p.type, '(') > 0",
      "THEN CAST(substr(p.type, instr(p.type, '(') + 1) AS INTEGER) ELSE 0 END AS length,",
      "p.dflt_value AS default_value, '' AS comment,",
      "(p.pk > 0 AND lower(p.type) = 'integer' AND EXISTS (SELECT 1 FROM sqlite_master m",
      "WHERE m.type = 'table' AND m.name = @table",
      "AND upper(m.sql) LIKE '%AUTOINCREMENT%')) AS is_identity,",
      "(p.\"notnull\" = 0 AND p.pk = 0) AS is_nullable, (p.pk > 0) AS is_primary,",
      "(f.\"table\" IS NOT NULL) AS is_foreign,",
      "CASE WHEN f.id IS NULL THEN NULL ELSE 'fk_' || @table || '_' || f.id END AS foreign_name,",
      "f.\"table\" AS referenced_table, f.\"to\" AS referenced_column",
      "FROM pragma_table_info(@table) p",
      "LEFT JOIN pragma_foreign_key_list(@table) f ON f.\"from\" = p.name",
      "ORDER BY p.cid"]

end SqlService.Dialect
